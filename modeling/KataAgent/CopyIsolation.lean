import KataAgent.CopyDelivery

namespace KataAgent
open Fallible FileTrees TreePaths
set_option autoImplicit true

/-- The state after the requests, however each of them ends. -/
def serveCopies (g : CopyGuest) (rs : List CopyFileRequest) (s : CopyState) : CopyState :=
  rs.foldl (fun s r => (doCopyFile g r s).2) s

/-- A run of the requests of two lists that keeps the order of each. -/
inductive Interleaves : List α → List α → List α → Prop
  | nil : Interleaves [] [] []
  | left : Interleaves a b run → Interleaves (r :: a) b (r :: run)
  | right : Interleaves a b run → Interleaves a (r :: b) (r :: run)

/-- The requests of a transfer in consecutive chunks. -/
def transferRequests (req : CopyFileRequest) (earlier : List (List UInt8)) (last : List UInt8) :
    List CopyFileRequest :=
  chunkRequests (req.sized (earlier.flatten ++ last)) 0 (earlier ++ [last])

/-- A run has the effect on the target that the requests `sent` for it have alone, and when these
are all of a transfer that delivers its content, the target holds that content. -/
structure Undisturbed (g : CopyGuest) (disk : Disk) (req : CopyFileRequest)
    (earlier : List (List UInt8)) (last : List UInt8) (target : List Chars)
    (sent run : List CopyFileRequest) : Prop where
  alone : (serveCopies g run ⟨disk, []⟩).disk.lookup target =
    (serveCopies g sent ⟨disk, []⟩).disk.lookup target
  whole : Delivers g disk req earlier last → sent = transferRequests req earlier last →
    (serveCopies g run ⟨disk, []⟩).disk.lookup target = some (.file (earlier.flatten ++ last))

/-- However the requests of two transfers follow on each other, neither disturbs the other. -/
def Isolated (real : Chars → Except Errno Canonical) (req₁ req₂ : CopyFileRequest)
    (p₁ p₂ : Canonical) : Prop :=
  ∀ refuses disk earlier₁ last₁ earlier₂ last₂ sent₁ sent₂ run,
    sent₁ <+: transferRequests req₁ earlier₁ last₁ →
    sent₂ <+: transferRequests req₂ earlier₂ last₂ → Interleaves sent₁ sent₂ run →
    Undisturbed ⟨real, refuses⟩ disk req₁ earlier₁ last₁ p₁.names sent₁ run ∧
      Undisturbed ⟨real, refuses⟩ disk req₂ earlier₂ last₂ p₂.names sent₂ run

/-- The two disks have the same entries at the path and at the place where its data is gathered, and
have the directory of both. -/
structure Alike (path : List Chars) (d e : Disk) : Prop where
  parent : d.lookup path.tail = some .dir
  parent' : e.lookup path.tail = some .dir
  target : d.lookup path = e.lookup path
  temp : d.lookup (tmpfile path) = e.lookup (tmpfile path)

section
variable {g : CopyGuest} {disk d e : Disk} {s t u v : CopyState} {req : CopyFileRequest}
variable {path node x : List Chars} {entry : Entry UInt8}

theorem tail_ne_self (h : node ≠ []) : node.tail ≠ node := by
  cases node with
  | nil => exact absurd rfl h
  | cons name above => exact List.ne_cons_self

/-- Whether an entry can be made depends on the place and its directory. -/
theorem hasRoom_congr (h : d.lookup node = e.lookup node)
    (ht : d.lookup node.tail = e.lookup node.tail) : d.HasRoom node ↔ e.HasRoom node := by
  cases node with
  | nil => exact .rfl
  | cons name above =>
    change d.lookup (name :: above) ≠ some .dir ∧ d.lookup above = some .dir ↔
      e.lookup (name :: above) ≠ some .dir ∧ e.lookup above = some .dir
    rw [h, show d.lookup above = e.lookup above from ht]

theorem lookup_put_congr (h : d.lookup node = e.lookup node)
    (ht : d.lookup node.tail = e.lookup node.tail) (hx : d.lookup x = e.lookup x) :
    (d.put node entry).lookup x = (e.put node entry).lookup x := by
  by_cases hr : d.HasRoom node
  · rw [FileTree.lookup_put hr, FileTree.lookup_put ((hasRoom_congr h ht).1 hr), hx]
  · rw [FileTree.put, dif_neg hr, FileTree.put, dif_neg (mt (hasRoom_congr h ht).2 hr), hx]

theorem lookup_remove_congr (h : d.lookup node = e.lookup node)
    (hx : d.lookup x = e.lookup x) : (d.remove node).lookup x = (e.remove node).lookup x := by
  by_cases hd : d.lookup node = some .dir
  · rw [FileTree.remove, dif_neg (not_not.2 hd), FileTree.remove, dif_neg, hx]
    rw [← h]
    exact not_not.2 hd
  · rw [FileTree.lookup_remove hd, FileTree.lookup_remove (h ▸ hd), hx]

theorem tail_ne_tmpfile (h : path ≠ []) : path.tail ≠ tmpfile path := tail_ne_setExtension h

theorem Alike.put (h : Alike path d e) (hp : path ≠ [])
    (hn : node = path ∨ node = tmpfile path) :
    Alike path (d.put node entry) (e.put node entry) := by
  have hl : d.lookup node = e.lookup node := by
    rcases hn with rfl | rfl
    · exact h.target
    · exact h.temp
  have ht : node.tail = path.tail := by
    rcases hn with rfl | rfl
    · rfl
    · exact tail_tmpfile
  have hne : path.tail ≠ node := by
    rcases hn with rfl | rfl
    · exact tail_ne_self hp
    · exact tail_ne_tmpfile hp
  have hlt : d.lookup node.tail = e.lookup node.tail := by rw [ht, h.parent, h.parent']
  refine ⟨?_, ?_, lookup_put_congr hl hlt h.target, lookup_put_congr hl hlt h.temp⟩
  · rw [FileTree.lookup_put_ne hne, h.parent]
  · rw [FileTree.lookup_put_ne hne, h.parent']

theorem Alike.remove_temp (h : Alike path d e) (hp : path ≠ []) :
    Alike path (d.remove (tmpfile path)) (e.remove (tmpfile path)) := by
  refine ⟨?_, ?_, lookup_remove_congr h.temp h.target, lookup_remove_congr h.temp h.temp⟩
  · rw [FileTree.lookup_remove_ne (tail_ne_tmpfile hp), h.parent]
  · rw [FileTree.lookup_remove_ne (tail_ne_tmpfile hp), h.parent']

/-- A change of the disk that ends alike on alike disks. -/
def Matches (path : List Chars) (f : Disk → Except Errno (α × Disk)) : Prop :=
  ∀ d e, Alike path d e → (∃ x, f d = .error x ∧ f e = .error x) ∨
    ∃ a d' e', f d = .ok (a, d') ∧ f e = .ok (a, e') ∧ Alike path d' e'

abbrev AlikeStates (path : List Chars) (s t : CopyState) : Prop := Alike path s.disk t.disk

theorem CopyGuest.call_agrees {f : Disk → Except Errno (α × Disk)} (hf : Matches path f) :
    Act.Agrees (AlikeStates path) (g.call c f) := by
  intro s t h
  rw [CopyGuest.call, CopyGuest.call]
  cases g.refuses c with
  | some e => exact ⟨rfl, h⟩
  | none =>
    rcases hf s.disk t.disk h with ⟨x, hs, ht⟩ | ⟨a, d, e, hs, ht, h'⟩
    · rw [hs, ht]
      exact ⟨rfl, h⟩
    · rw [hs, ht]
      exact ⟨rfl, h'⟩

/-- A change that ends alike, without a value. -/
def MatchesUnit (path : List Chars) (f : Disk → Except Errno Disk) : Prop :=
  ∀ d e, Alike path d e → (∃ x, f d = .error x ∧ f e = .error x) ∨
    ∃ d' e', f d = .ok d' ∧ f e = .ok e' ∧ Alike path d' e'

theorem CopyGuest.change_agrees {f : Disk → Except Errno Disk} (hf : MatchesUnit path f) :
    Act.Agrees (AlikeStates path) (g.change c f) := by
  apply CopyGuest.call_agrees
  intro d e h
  rcases hf d e h with ⟨x, hd, he⟩ | ⟨d', e', hd, he, h'⟩
  · dsimp only
    rw [hd, he]
    exact .inl ⟨x, rfl, rfl⟩
  · dsimp only
    rw [hd, he]
    exact .inr ⟨(), d', e', rfl, rfl, h'⟩

theorem CopyGuest.createDirAll_agrees :
    Act.Agrees (AlikeStates path) (g.createDirAll path.tail) := by
  have hm : MatchesUnit path (Disk.createDirAll · path.tail) := fun d e h =>
    .inr ⟨d, e, Disk.createDirAll_of_dir h.parent, Disk.createDirAll_of_dir h.parent', h⟩
  intro s t h
  obtain ⟨ho, hr⟩ := CopyGuest.change_agrees (g := g) (c := .createDirAll path.tail) hm s t h
  rw [CopyGuest.createDirAll, CopyGuest.createDirAll]
  rcases hs : g.change (.createDirAll path.tail) (Disk.createDirAll · path.tail) s with ⟨o, s'⟩
  rcases ht : g.change (.createDirAll path.tail) (Disk.createDirAll · path.tail) t with ⟨o', t'⟩
  rw [hs, ht] at ho hr
  cases ho
  cases o with
  | ok a => exact ⟨rfl, hr⟩
  | err e =>
    dsimp only
    split
    · exact ⟨rfl, hr⟩
    · exact ⟨rfl, hr⟩
  | panic => exact ⟨rfl, hr⟩

theorem chmod_matches (hn : node = path.tail ∨ node = tmpfile path) :
    MatchesUnit path (Disk.chmod · node) := by
  intro d e h
  have hl : d.lookup node = e.lookup node := by
    rcases hn with rfl | rfl
    · rw [h.parent, h.parent']
    · exact h.temp
  dsimp only
  rw [Disk.chmod, Disk.chmod, hl]
  split
  · exact .inr ⟨d, e, rfl, rfl, h⟩
  · exact .inl ⟨_, rfl, rfl⟩

theorem Alike.hasRoom_temp_iff (h : Alike path d e) :
    d.HasRoom (tmpfile path) ↔ e.HasRoom (tmpfile path) := by
  apply hasRoom_congr h.temp
  rw [tail_tmpfile, h.parent, h.parent']

theorem openFile_matches (hp : path ≠ []) :
    MatchesUnit path (Disk.openFile · (tmpfile path)) := by
  intro d e h
  dsimp only
  rw [Disk.openFile, Disk.openFile, h.temp]
  cases he : e.lookup (tmpfile path) with
  | none =>
    by_cases hr : e.HasRoom (tmpfile path)
    · exact .inr ⟨_, _, if_pos (h.hasRoom_temp_iff.2 hr), if_pos hr, h.put hp (.inr rfl)⟩
    · exact .inl ⟨_, if_neg (mt h.hasRoom_temp_iff.1 hr), if_neg hr⟩
  | some entry =>
    cases entry with
    | dir => exact .inl ⟨_, rfl, rfl⟩
    | file data => exact .inr ⟨_, _, rfl, rfl, h⟩

theorem writeAllAt_matches (hp : path ≠ []) :
    MatchesUnit path (Disk.writeAllAt · (tmpfile path) data offset) := by
  intro d e h
  dsimp only
  rw [Disk.writeAllAt, Disk.writeAllAt, h.temp]
  cases e.lookup (tmpfile path) with
  | none => exact .inl ⟨_, rfl, rfl⟩
  | some entry =>
    cases entry with
    | dir => exact .inl ⟨_, rfl, rfl⟩
    | file old =>
      by_cases ho : 0 ≤ offset
      · exact .inr ⟨_, _, if_pos ho, if_pos ho, h.put hp (.inr rfl)⟩
      · exact .inl ⟨_, if_neg ho, if_neg ho⟩

theorem stat_matches :
    Matches path fun disk => (Disk.stat disk (tmpfile path)).map (·, disk) := by
  intro d e h
  dsimp only
  rw [Disk.stat, Disk.stat, h.temp]
  cases e.lookup (tmpfile path) with
  | none => exact .inl ⟨_, rfl, rfl⟩
  | some entry =>
    cases entry with
    | dir => exact .inl ⟨_, rfl, rfl⟩
    | file old => exact .inr ⟨_, _, _, rfl, rfl, h⟩

theorem Alike.hasRoom_iff (h : Alike path d e) : d.HasRoom path ↔ e.HasRoom path := by
  apply hasRoom_congr h.target
  rw [h.parent, h.parent']

/-- The end of `rename` for a file. -/
theorem Alike.moved (h : Alike path d e) (hp : path ≠ []) (data : List UInt8) :
    let f (disk : Disk) : Except Errno Disk :=
      if tmpfile path = path then .ok disk
      else if disk.HasRoom path then .ok ((disk.put path (.file data)).remove (tmpfile path))
      else .error .ENOENT
    (∃ x, f d = .error x ∧ f e = .error x) ∨
      ∃ d' e', f d = .ok d' ∧ f e = .ok e' ∧ Alike path d' e' := by
  intro f
  by_cases ht : tmpfile path = path
  · exact .inr ⟨d, e, if_pos ht, if_pos ht, h⟩
  · by_cases hr : e.HasRoom path
    · exact .inr ⟨_, _, (if_neg ht).trans (if_pos (h.hasRoom_iff.2 hr)),
        (if_neg ht).trans (if_pos hr), (h.put hp (.inl rfl)).remove_temp hp⟩
    · exact .inl ⟨_, (if_neg ht).trans (if_neg (mt h.hasRoom_iff.1 hr)),
        (if_neg ht).trans (if_neg hr)⟩

theorem rename_matches (hp : path ≠ []) :
    MatchesUnit path (Disk.rename · (tmpfile path) path) := by
  intro d e h
  have hmoved (data : List UInt8) := h.moved hp data
  dsimp only
  rw [Disk.rename, Disk.rename, h.temp, h.target]
  cases e.lookup (tmpfile path) with
  | none => exact .inl ⟨_, rfl, rfl⟩
  | some entry =>
    cases entry with
    | dir => exact .inl ⟨_, rfl, rfl⟩
    | file data =>
      cases e.lookup path with
      | none => exact hmoved data
      | some entry =>
        cases entry with
        | dir => exact .inl ⟨_, rfl, rfl⟩
        | file old => exact hmoved data

theorem sendChunk_agrees (hp : path ≠ []) :
    Act.Agrees (AlikeStates path) (sendChunk g req path) := by
  refine CopyGuest.createDirAll_agrees.bind fun _ => ?_
  refine (CopyGuest.change_agrees (chmod_matches (.inl rfl))).bind fun _ => ?_
  refine (CopyGuest.change_agrees (openFile_matches hp)).bind fun _ => ?_
  refine .bind ?_ fun _ => CopyGuest.call_agrees stat_matches
  rw [CopyGuest.writeAllAt]
  split
  · exact .pure ()
  · exact CopyGuest.change_agrees (writeAllAt_matches hp)

theorem finishFile_agrees (hp : path ≠ []) :
    Act.Agrees (AlikeStates path) (finishFile g req path) := by
  refine (CopyGuest.change_agrees (chmod_matches (.inr rfl))).bind fun _ => ?_
  refine (CopyGuest.change_agrees (chmod_matches (.inr rfl))).bind fun _ => ?_
  exact CopyGuest.change_agrees (rename_matches hp)

/-- The same entries at the path and at the place where its data is gathered. -/
def Same (path : List Chars) (s t : CopyState) : Prop :=
  s.disk.lookup path = t.disk.lookup path ∧
    s.disk.lookup (tmpfile path) = t.disk.lookup (tmpfile path)

/-- A request whose path leads nowhere is refused and changes nothing. -/
theorem doCopyFile_missing {p : Canonical} (hr : g.real req.path = .ok p)
    (hm : s.disk.lookup p.names = none) : doCopyFile g req s = (.err .ENOENT, s) := by
  apply Act.bind_err
  simp [CopyGuest.canonicalize, hr, hm]

theorem below_ne_nil (h : baseNode <:+ path) : path ≠ [] := by
  intro hn
  rw [hn, List.suffix_nil] at h
  cases h

theorem doCopyFile_found {p : Canonical} (hr : g.real req.path = .ok p)
    (hf : (s.disk.lookup p.names).isSome) : doCopyFile g req s =
      if baseNode <:+ p.names then
        (sendChunk g req p.names >>= fun size =>
          if size ≠ req.fileSize then pure () else finishFile g req p.names) s
      else (.err .EINVAL, s) := by
  rw [doCopyFile, Act.bind_ok (CopyGuest.canonicalize_eq_ok.2 ⟨hr, hf, rfl⟩)]
  split
  · rfl
  · rfl

/-- A request ends as what is at its path and gathered for it says. -/
theorem doCopyFile_same {p : Canonical} (hr : g.real req.path = .ok p) (h : Same p.names s t) :
    (doCopyFile g req s).1 = (doCopyFile g req t).1 ∧
      Same p.names (doCopyFile g req s).2 (doCopyFile g req t).2 := by
  cases hs : s.disk.lookup p.names with
  | none =>
    rw [doCopyFile_missing hr hs, doCopyFile_missing hr (h.1.symm.trans hs)]
    exact ⟨rfl, h⟩
  | some entry =>
    have ht := h.1.symm.trans hs
    rw [doCopyFile_found hr (hs ▸ rfl), doCopyFile_found hr (ht ▸ rfl)]
    split
    · rename_i hb
      have hp := below_ne_nil hb
      have ha : Act.Agrees (AlikeStates p.names) (sendChunk g req p.names >>= fun size =>
          if size ≠ req.fileSize then pure () else finishFile g req p.names) := by
        refine (sendChunk_agrees hp).bind fun size => ?_
        split
        · exact .pure ()
        · exact finishFile_agrees hp
      obtain ⟨ho, ha⟩ := ha s t
        ⟨FileTree.parent_of_lookup hs, FileTree.parent_of_lookup ht, h.1, h.2⟩
      exact ⟨ho, ha.target, ha.temp⟩
    · exact ⟨rfl, h⟩

/-- The directory of the path, and the entry at another place. -/
def Beside (path x : List Chars) (o : Option (Entry UInt8)) (s : CopyState) : Prop :=
  s.disk.lookup path.tail = some .dir ∧ s.disk.lookup x = o

/-- The change leaves the disk as it is but for the path and its temporary place. -/
def Local (path : List Chars) (f : Disk → Except Errno Disk) : Prop :=
  ∀ d d', f d = .ok d' → d.lookup path.tail = some .dir →
    ∀ x, x ≠ path → x ≠ tmpfile path → d'.lookup x = d.lookup x

theorem CopyGuest.call_snd {f : Disk → Except Errno (α × Disk)} :
    (g.call c f s).2.disk = s.disk ∨ ∃ a disk, f s.disk = .ok (a, disk) ∧
      (g.call c f s).2.disk = disk := by
  rw [CopyGuest.call]
  cases g.refuses c with
  | some e => exact .inl rfl
  | none =>
    cases f s.disk with
    | ok r => exact .inr ⟨r.1, r.2, rfl, rfl⟩
    | error e => exact .inl rfl

theorem CopyGuest.change_snd {f : Disk → Except Errno Disk} :
    (g.change c f s).2.disk = s.disk ∨ ∃ disk, f s.disk = .ok disk ∧
      (g.change c f s).2.disk = disk := by
  rcases CopyGuest.call_snd (g := g) (c := c) (s := s)
    (f := fun disk => (f disk).map fun disk => ((), disk)) with h | ⟨a, disk, hf, h⟩
  · exact .inl h
  · refine .inr ⟨disk, ?_, h⟩
    cases hd : f s.disk with
    | error e =>
      rw [hd] at hf
      cases hf
    | ok d =>
      rw [hd] at hf
      cases hf
      rfl

theorem CopyGuest.change_beside {f : Disk → Except Errno Disk} (hf : Local path f)
    (hp : path ≠ []) (hx : x ≠ path) (ht : x ≠ tmpfile path) :
    Act.Preserves (Beside path x o) (g.change c f) := by
  rintro s ⟨hdir, ho⟩
  rcases CopyGuest.change_snd (g := g) (c := c) (f := f) (s := s) with h | ⟨disk, hd, h⟩
  · rw [Beside, h]
    exact ⟨hdir, ho⟩
  · rw [Beside, h, hf _ _ hd hdir _ (tail_ne_self hp) (tail_ne_tmpfile hp), hf _ _ hd hdir x hx ht]
    exact ⟨hdir, ho⟩

theorem CopyGuest.createDirAll_snd :
    (g.createDirAll node s).2 = (g.change (.createDirAll node) (Disk.createDirAll · node) s).2 := by
  rw [CopyGuest.createDirAll]
  rcases g.change (.createDirAll node) (Disk.createDirAll · node) s with ⟨o, t⟩
  cases o with
  | ok a => rfl
  | err e =>
    dsimp only
    split
    · rfl
    · rfl
  | panic => rfl

theorem createDirAll_local : Local path (Disk.createDirAll · path.tail) := by
  intro d d' h hp x hx ht
  dsimp only at h
  rw [Disk.createDirAll_of_dir hp] at h
  cases h
  rfl

theorem chmod_local : Local path (Disk.chmod · node) := by
  intro d d' h hp x hx ht
  rw [(Disk.chmod_eq_ok.1 h).2]

theorem openFile_local : Local path (Disk.openFile · (tmpfile path)) := by
  intro d d' h hp x hx ht
  obtain ⟨data, -, rfl⟩ :=
    (Disk.openFile_eq_ok ((congrArg d.lookup tail_tmpfile).trans hp)).1 h
  exact FileTree.lookup_put_ne ht

theorem writeAllAt_local : Local path (Disk.writeAllAt · (tmpfile path) data offset) := by
  intro d d' h hp x hx ht
  dsimp only at h
  rw [Disk.writeAllAt] at h
  split at h
  · split at h
    · cases h
      exact FileTree.lookup_put_ne ht
    · cases h
  · cases h

theorem rename_local : Local path (Disk.rename · (tmpfile path) path) := by
  intro d d' h hp x hx ht
  dsimp only at h
  rw [Disk.rename] at h
  split at h
  · cases h
  · split at h
    · cases h
      rfl
    · split at h
      · cases h
        rw [FileTree.lookup_remove_ne ht, FileTree.lookup_put_ne hx]
      · cases h
  · cases h

theorem stat_beside : Act.Preserves (Beside path x o) (g.call (.stat node) fun disk =>
    (Disk.stat disk node).map (·, disk)) := by
  intro s hs
  rcases CopyGuest.call_snd (g := g) (c := .stat node) (s := s)
    (f := fun disk => (Disk.stat disk node).map (·, disk)) with h | ⟨size, disk, hd, h⟩
  · rw [Beside, h]
    exact hs
  · cases hn : Disk.stat s.disk node with
    | error e =>
      rw [hn] at hd
      cases hd
    | ok n =>
      rw [hn] at hd
      cases hd
      rw [Beside, h]
      exact hs

theorem sendChunk_beside (hp : path ≠ []) (hx : x ≠ path) (ht : x ≠ tmpfile path) :
    Act.Preserves (Beside path x o) (sendChunk g req path) := by
  refine .bind ?_ fun _ => ?_
  · intro s h
    rw [CopyGuest.createDirAll_snd]
    exact CopyGuest.change_beside createDirAll_local hp hx ht s h
  refine (CopyGuest.change_beside chmod_local hp hx ht).bind fun _ => ?_
  refine (CopyGuest.change_beside openFile_local hp hx ht).bind fun _ => ?_
  refine .bind ?_ fun _ => ?_
  · rw [CopyGuest.writeAllAt]
    split
    · exact .pure ()
    · exact CopyGuest.change_beside writeAllAt_local hp hx ht
  · exact stat_beside

theorem finishFile_beside (hp : path ≠ []) (hx : x ≠ path) (ht : x ≠ tmpfile path) :
    Act.Preserves (Beside path x o) (finishFile g req path) := by
  refine (CopyGuest.change_beside chmod_local hp hx ht).bind fun _ => ?_
  refine (CopyGuest.change_beside chmod_local hp hx ht).bind fun _ => ?_
  exact CopyGuest.change_beside rename_local hp hx ht

/-- A request leaves what is beside its path as it is, however it ends. -/
theorem doCopyFile_beside {p : Canonical} (hr : g.real req.path = .ok p) (hx : x ≠ p.names)
    (ht : x ≠ tmpfile p.names) : (doCopyFile g req s).2.disk.lookup x = s.disk.lookup x := by
  cases hs : s.disk.lookup p.names with
  | none => rw [doCopyFile_missing hr hs]
  | some entry =>
    rw [doCopyFile_found hr (hs ▸ rfl)]
    split
    · rename_i hb
      have hp := below_ne_nil hb
      have hkeeps : Act.Preserves (Beside p.names x (s.disk.lookup x))
          (sendChunk g req p.names >>= fun size =>
            if size ≠ req.fileSize then pure () else finishFile g req p.names) := by
        refine (sendChunk_beside hp hx ht).bind fun size => ?_
        split
        · exact .pure ()
        · exact finishFile_beside hp hx ht
      exact (hkeeps s ⟨FileTree.parent_of_lookup hs, rfl⟩).2
    · rfl

theorem fileStem_ne_nil {name : Chars} (h : name ≠ []) : fileStem name ≠ [] := by
  rw [fileStem]
  split
  · exact h
  · rename_i hn
    exact fun hb => hn (.inr hb)

/-- The temporary name of a temporary name is that name. -/
theorem fileStem_tmp {stem : Chars} (h : stem ≠ []) :
    fileStem (stem ++ '.' :: "tmp".toList) = stem := by
  have hext : "tmp".toList = ['t', 'm', 'p'] := by decide
  have hb : ((stem ++ '.' :: "tmp".toList).reverse.dropWhile (· ≠ '.')).tail.reverse = stem := by
    simp [hext]
  rw [fileStem, if_neg]
  · exact hb
  · rintro (hn | hn)
    · have hl := congrArg List.length hn
      simp [hext] at hl
    · exact h (hb.symm.trans hn)

theorem tmpfile_tmpfile (p : Canonical) :
    tmpfile (tmpfile p.names) = tmpfile p.names := by
  rcases p with ⟨names, hok⟩
  cases names with
  | nil => rfl
  | cons name above =>
    have hne : name ≠ [] := by
      rintro rfl
      cases (hok [] List.mem_cons_self).1
    change (fileStem (fileStem name ++ '.' :: "tmp".toList) ++ _) :: above = _ :: above
    rw [fileStem_tmp (fileStem_ne_nil hne)]

/-- With temporary names of their own two paths have no file in common. -/
theorem names_apart {p q : Canonical} (hne : p.names ≠ q.names)
    (ht : tmpfile p.names ≠ tmpfile q.names) (hx : x = p.names ∨ x = tmpfile p.names) :
    x ≠ q.names ∧ x ≠ tmpfile q.names := by
  rcases hx with rfl | rfl
  · refine ⟨hne, fun h => ht ?_⟩
    rw [h, tmpfile_tmpfile q]
  · refine ⟨fun h => ht ?_, ht⟩
    rw [← h, tmpfile_tmpfile p]

theorem Interleaves.symm (h : Interleaves a b run) : Interleaves b a run := by
  induction h with
  | nil => exact .nil
  | left _ ih => exact .right ih
  | right _ ih => exact .left ih

/-- In any interleaving the requests for one path have the effect that they have alone. -/
theorem serveCopies_same {p q : Canonical} {a b run : List CopyFileRequest}
    (hne : p.names ≠ q.names) (ht : tmpfile p.names ≠ tmpfile q.names)
    (ha : ∀ r ∈ a, g.real r.path = .ok p) (hb : ∀ r ∈ b, g.real r.path = .ok q)
    (h : Interleaves a b run) (hs : Same p.names s t) :
    Same p.names (serveCopies g run s) (serveCopies g a t) := by
  induction h generalizing s t with
  | nil => exact hs
  | left _ ih =>
    obtain ⟨hr, ha⟩ := List.forall_mem_cons.1 ha
    exact ih ha hb (doCopyFile_same hr hs).2
  | right _ ih =>
    obtain ⟨hr, hb⟩ := List.forall_mem_cons.1 hb
    apply ih ha hb
    have hkeeps {x : List Chars} (hx : x = p.names ∨ x = tmpfile p.names) :=
      doCopyFile_beside (s := s) hr (names_apart hne ht hx).1 (names_apart hne ht hx).2
    exact ⟨(hkeeps (.inl rfl)).trans hs.1, (hkeeps (.inr rfl)).trans hs.2⟩

theorem serveCopies_of_forM {rs : List CopyFileRequest}
    (h : rs.forM (doCopyFile g) s = (.ok (), t)) :
    serveCopies g rs s = t := by
  induction rs generalizing s with
  | nil =>
    cases h
    rfl
  | cons r rs ih =>
    obtain ⟨a, u, hstep, hrest⟩ := Act.bind_eq_ok.1 h
    change serveCopies g rs (doCopyFile g r s).2 = t
    rw [hstep]
    exact ih hrest

theorem serveCopies_transfer {p : Canonical} {earlier : List (List UInt8)} {last : List UInt8}
    (hr : g.real req.path = .ok p) (h : Delivers g disk req earlier last) :
    (serveCopies g (transferRequests req earlier last) ⟨disk, []⟩).disk.lookup p.names =
      some (.file (earlier.flatten ++ last)) := by
  obtain ⟨path, s, t, hr', hrun, -, hlast, -, hl⟩ := h
  cases hr'.symm.trans hr
  rw [transferRequests, chunkRequests_append, Nat.zero_add, serveCopies, List.foldl_append]
  change (serveCopies g _ (serveCopies g _ _)).disk.lookup _ = _
  rw [serveCopies_of_forM hrun]
  change (doCopyFile g _ s).2.disk.lookup _ = _
  rw [hlast]
  exact hl

theorem path_of_mem_chunkRequests {r : CopyFileRequest} {cs : List (List UInt8)} {offset : Nat}
    (h : r ∈ chunkRequests req offset cs) : r.path = req.path := by
  induction cs generalizing offset with
  | nil => cases h
  | cons c cs ih =>
    rcases List.mem_cons.1 h with rfl | h
    · rfl
    · exact ih h

theorem path_of_sent {r : CopyFileRequest} {sent : List CopyFileRequest}
    {earlier : List (List UInt8)} {last : List UInt8}
    (hs : sent <+: transferRequests req earlier last) (h : r ∈ sent) : r.path = req.path := by
  have hm : r ∈ chunkRequests (req.sized (earlier.flatten ++ last)) 0 (earlier ++ [last]) :=
    hs.subset h
  have hp := path_of_mem_chunkRequests hm
  exact hp

theorem undisturbed_of_apart {p q : Canonical} {req' : CopyFileRequest}
    {sent sent' run : List CopyFileRequest} {earlier earlier' : List (List UInt8)}
    {last last' : List UInt8} (hr : g.real req.path = .ok p) (hr' : g.real req'.path = .ok q)
    (hne : p.names ≠ q.names) (ht : tmpfile p.names ≠ tmpfile q.names)
    (hs : sent <+: transferRequests req earlier last)
    (hs' : sent' <+: transferRequests req' earlier' last') (h : Interleaves sent sent' run) :
    Undisturbed g disk req earlier last p.names sent run := by
  have hsame : Same p.names (serveCopies g run ⟨disk, []⟩) (serveCopies g sent ⟨disk, []⟩) :=
    serveCopies_same hne ht (fun r hm => (congrArg g.real (path_of_sent hs hm)).trans hr)
      (fun r hm => (congrArg g.real (path_of_sent hs' hm)).trans hr') h ⟨rfl, rfl⟩
  refine ⟨hsame.1, fun hd he => ?_⟩
  rw [hsame.1, he]
  exact serveCopies_transfer hr hd

theorem serves_of_none (hg : ∀ c, g.refuses c = none) : ∀ c, g.Serves c := by
  intro c
  cases c with
  | createDirAll dir => exact .inl (hg _)
  | chmod path mode => exact hg _
  | openFile path => exact hg _
  | writeAllAt path data offset => exact hg _
  | stat path => exact hg _
  | chown path uid gid => exact hg _
  | rename src dest => exact hg _

/-- Where nothing is refused, a chunk goes to the file gathered. -/
theorem sends_chunk {p : Canonical} {d left c : List UInt8} (hg : ∀ c, g.refuses c = none)
    (hr : g.real req.path = .ok p) (hf : (s.disk.lookup p.names).isSome)
    (hb : baseNode <:+ p.names)
    (hc : Disk.contents s.disk (tmpfile p.names) = some (overlaid d left)) :
    g.Sends (req.chunk d.length c) s.disk p (overlaid d left) :=
  ⟨hr, hf, hb, hc, fun c _ => serves_of_none hg c, fun _ => Int.natCast_nonneg _⟩

theorem gathered_chunk {p : Canonical} {d left c : List UInt8}
    (h : g.Sends (req.chunk d.length c) s.disk p (overlaid d left))
    (hsize : ((overlaid (d ++ c) left).length : Int) ≠ (req.chunk d.length c).fileSize) :
    (doCopyFile g (req.chunk d.length c) s).2.disk =
      s.disk.put (tmpfile p.names) (.file (overlaid (d ++ c) left)) := by
  have hw : (req.chunk d.length c).written (overlaid d left) = overlaid (d ++ c) left :=
    written_overlaid
  rw [← hw] at hsize
  rw [h.apply, if_pos hsize, CopyFileRequest.gathered, hw]

/-- A chunk that reaches the announced size ends up at the path. -/
theorem finished_chunk {p : Canonical} {d c : List UInt8} (hg : ∀ c, g.refuses c = none)
    (h : g.Sends (req.chunk d.length c) s.disk p (overlaid d []))
    (hd : s.disk.lookup p.names ≠ some .dir)
    (hsize : ((d ++ c).length : Int) = (req.chunk d.length c).fileSize) :
    (doCopyFile g (req.chunk d.length c) s).2.disk.lookup p.names = some (.file (d ++ c)) := by
  have hw : (req.chunk d.length c).written (overlaid d []) = d ++ c := by
    rw [written_overlaid, overlaid, List.drop_nil, List.append_nil]
  rw [← hw] at hsize
  rw [doCopyFile_eq_ok.2 ⟨p, overlaid d [], h, .inr ⟨hsize, fun c _ => serves_of_none hg c,
    h.gathered_notDir_iff.2 hd, rfl⟩⟩]
  exact (h.lookup_finished hd).trans (by rw [hw])

theorem isSome_lookup_put (h : (disk.lookup x).isSome) :
    ((disk.put node entry).lookup x).isSome := by
  by_cases hr : disk.HasRoom node
  · rw [FileTree.lookup_put hr]
    split
    · rfl
    · exact h
  · rw [FileTree.put, dif_neg hr]
    exact h

/-- Two paths with files and one temporary name, at which nothing has been gathered. -/
structure Shared (p q : Canonical) (disk : Disk) : Prop where
  own : disk.lookup p.names = some (.file [])
  other : disk.lookup q.names = some (.file [])
  temp : Disk.contents disk (tmpfile p.names) = some []
  same : tmpfile p.names = tmpfile q.names
  apart : tmpfile p.names ≠ p.names

/-- A first chunk of one byte replaces the first byte gathered. -/
theorem first_chunk {p : Canonical} {old : List UInt8} {b : UInt8}
    (hg : ∀ c, g.refuses c = none) (hr : g.real req.path = .ok p)
    (hf : (s.disk.lookup p.names).isSome) (hb : baseNode <:+ p.names)
    (hc : Disk.contents s.disk (tmpfile p.names) = some old)
    (hsize : ((overlaid [b] old).length : Int) ≠ req.fileSize) :
    s.disk.HasRoom (tmpfile p.names) ∧ (doCopyFile g (req.chunk 0 [b]) s).2.disk =
      s.disk.put (tmpfile p.names) (.file (overlaid [b] old)) := by
  have hs : g.Sends (req.chunk ([] : List UInt8).length [b]) s.disk p (overlaid [] old) :=
    sends_chunk hg hr hf hb hc
  have hd := gathered_chunk hs hsize
  exact ⟨hs.hasRoom, hd⟩

/-- A first chunk of another transfer gets into a file that is gathered at the same place. -/
theorem Shared.mixed {p q : Canonical} {req' : CopyFileRequest} (hg : ∀ c, g.refuses c = none)
    (hp : g.real req.path = .ok p) (hq : g.real req'.path = .ok q) (hb : baseNode <:+ p.names)
    (hb' : baseNode <:+ q.names) (h : Shared p q disk) :
    (serveCopies g [(req.sized [1, 2]).chunk 0 [1], (req'.sized [3, 4]).chunk 0 [3],
      (req.sized [1, 2]).chunk 1 [2]] ⟨disk, []⟩).disk.lookup p.names = some (.file [3, 2]) := by
  have hone : ((1 : Nat) : Int) ≠ (2 : Nat) := by decide
  have hp' : g.real (req.sized [1, 2]).path = .ok p := hp
  have hq' : g.real (req'.sized [3, 4]).path = .ok q := hq
  have hf : (disk.lookup p.names).isSome := by rw [h.own]; rfl
  have hf' : (disk.lookup q.names).isSome := by rw [h.other]; rfl
  rw [serveCopies, List.foldl_cons, List.foldl_cons, List.foldl_cons, List.foldl_nil]
  obtain ⟨hroom, hd₁⟩ := first_chunk (b := 1) (s := ⟨disk, []⟩) hg hp' hf hb h.temp hone
  generalize (doCopyFile g ((req.sized [1, 2]).chunk 0 [1]) ⟨disk, []⟩).2 = s₁ at hd₁ ⊢
  have hc₁ : Disk.contents s₁.disk (tmpfile q.names) = some [1] := by
    rw [hd₁, ← h.same]
    exact Disk.contents_put hroom
  have hf₁ : (s₁.disk.lookup q.names).isSome := by
    rw [hd₁]
    exact isSome_lookup_put hf'
  obtain ⟨hroom₁, hd₂⟩ := first_chunk (b := 3) hg hq' hf₁ hb' hc₁ hone
  generalize (doCopyFile g ((req'.sized [3, 4]).chunk 0 [3]) s₁).2 = s₂ at hd₂ ⊢
  have hc₂ : Disk.contents s₂.disk (tmpfile p.names) = some [3] := by
    rw [hd₂, h.same]
    exact Disk.contents_put hroom₁
  have hl₂ : s₂.disk.lookup p.names = some (.file []) := by
    rw [hd₂, ← h.same, FileTree.lookup_put_ne h.apart.symm, hd₁,
      FileTree.lookup_put_ne h.apart.symm, h.own]
  have hs₃ :
      g.Sends ((req.sized [1, 2]).chunk [(3 : UInt8)].length [2]) s₂.disk p (overlaid [3] []) :=
    sends_chunk hg hp' (by rw [hl₂]; rfl) hb hc₂
  have hd₂ : s₂.disk.lookup p.names ≠ some .dir := by
    rw [hl₂]
    intro hn
    cases hn
  have hend := finished_chunk hg hs₃ hd₂ rfl
  exact hend

theorem lookup_dirs_ne_dir {name : Chars} :
    (FileTree.dirs (β := UInt8) node).lookup (name :: node) ≠ some .dir := by
  rw [FileTree.lookup_dirs_cons]
  intro h
  cases h

theorem exists_shared {p q : Canonical} (hp : p.names ≠ []) (hq : q.names ≠ [])
    (hne : p.names ≠ q.names) (ht : tmpfile p.names = tmpfile q.names)
    (ha : tmpfile p.names ≠ p.names) : ∃ disk, Shared p q disk := by
  obtain ⟨n, above, hn⟩ := List.exists_cons_of_ne_nil hp
  obtain ⟨m, above', hm⟩ := List.exists_cons_of_ne_nil hq
  have hsame : above = above' := by
    have htail := congrArg List.tail ht
    rw [tail_tmpfile, tail_tmpfile, hn, hm] at htail
    exact htail
  subst hsame
  have hr : (FileTree.dirs (β := UInt8) above).HasRoom p.names := by
    rw [hn]
    exact ⟨lookup_dirs_ne_dir, FileTree.lookup_dirs⟩
  have hr' : ((FileTree.dirs above).put p.names (.file ([] : List UInt8))).HasRoom q.names := by
    apply FileTree.hasRoom_of_parent
    · rw [FileTree.lookup_put_ne hne.symm, hm]
      exact lookup_dirs_ne_dir
    · rw [FileTree.lookup_put_ne, hm]
      · exact FileTree.lookup_dirs
      · rw [hm, hn]
        exact List.ne_cons_self
  refine ⟨((FileTree.dirs above).put p.names (.file [])).put q.names (.file []), ?_,
    FileTree.lookup_put_self hr', ?_, ht, ha⟩
  · rw [FileTree.lookup_put_ne hne, FileTree.lookup_put_self hr]
  · by_cases hx : tmpfile p.names = q.names
    · rw [hx]
      exact Disk.contents_put hr'
    · have htmp : tmpfile p.names = (fileStem n ++ '.' :: "tmp".toList) :: above := by
        rw [hn]
        rfl
      rw [Disk.contents, FileTree.lookup_put_ne hx, FileTree.lookup_put_ne ha, htmp,
        FileTree.lookup_dirs_cons]

theorem Shared.delivers {p q : Canonical} (hg : ∀ c, g.refuses c = none)
    (hr : g.real req.path = .ok p) (hb : baseNode <:+ p.names) (h : Shared p q disk) :
    Delivers g disk req [[1]] [2] := by
  apply Deliverable.delivers
  exact ⟨p, [], [], hr, hb, h.own, h.temp, fun _ _ c _ => serves_of_none hg c,
    fun c _ => serves_of_none hg c, Nat.zero_le _,
    .inr ⟨List.cons_ne_nil _ _, Nat.succ_pos _, h.apart⟩⟩

variable {real : Chars → Except Errno Canonical} {req' : CopyFileRequest} {p q : Canonical}

theorem not_isolated_of_shared (hr : real req.path = .ok p) (hr' : real req'.path = .ok q)
    (hb : baseNode <:+ p.names) (hb' : baseNode <:+ q.names) (h : Shared p q disk) :
    ¬ Isolated real req req' p q := by
  intro hi
  have hmixed := h.mixed (g := ⟨real, fun _ => none⟩) (fun _ => rfl) hr hr' hb hb'
  have hd := h.delivers (g := ⟨real, fun _ => none⟩) (fun _ => rfl) hr hb
  have hwhole := (hi (fun _ => none) disk [[1]] [2] [[3]] [4] _ [(req'.sized [3, 4]).chunk 0 [3]] _
    List.prefix_rfl ⟨_, rfl⟩ (.left (.right (.left .nil)))).1.whole hd rfl
  cases hwhole.symm.trans hmixed

theorem Isolated.symm (h : Isolated real req req' p q) : Isolated real req' req q p :=
  fun refuses disk earlier last earlier' last' sent sent' run hs hs' hi =>
    (h refuses disk earlier' last' earlier last sent' sent run hs' hs hi.symm).symm

/-- Transfers to two files are isolated from each other if and only if their data is gathered at
different places. -/
theorem isolated_iff (real : Chars → Except Errno Canonical) (req₁ req₂ : CopyFileRequest)
    (p₁ p₂ : Canonical) (h₁ : real req₁.path = .ok p₁) (h₂ : real req₂.path = .ok p₂)
    (hb₁ : baseNode <:+ p₁.names) (hb₂ : baseNode <:+ p₂.names) (hne : p₁.names ≠ p₂.names) :
    Isolated real req₁ req₂ p₁ p₂ ↔ tmpfile p₁.names ≠ tmpfile p₂.names := by
  constructor
  · intro h ht
    by_cases ha : tmpfile p₁.names = p₁.names
    · have ha₂ : tmpfile p₂.names ≠ p₂.names := by
        rw [← ht, ha]
        exact hne
      obtain ⟨disk, hs⟩ := exists_shared (below_ne_nil hb₂) (below_ne_nil hb₁) hne.symm ht.symm ha₂
      exact not_isolated_of_shared h₂ h₁ hb₂ hb₁ hs h.symm
    · obtain ⟨disk, hs⟩ := exists_shared (below_ne_nil hb₁) (below_ne_nil hb₂) hne ht ha
      exact not_isolated_of_shared h₁ h₂ hb₁ hb₂ hs h
  · intro ht refuses disk earlier₁ last₁ earlier₂ last₂ sent₁ sent₂ run hs₁ hs₂ h
    exact ⟨undisturbed_of_apart h₁ h₂ hne ht hs₁ hs₂ h,
      undisturbed_of_apart h₂ h₁ hne.symm ht.symm hs₂ hs₁ h.symm⟩

end

def textPath : Canonical := ⟨"a.txt".toList :: baseNode, by decide⟩

def jsonPath : Canonical := ⟨"a.json".toList :: baseNode, by decide⟩

def confPath : Canonical := ⟨"b.txt".toList :: baseNode, by decide⟩

/-- No links: a path leads to one of two nodes. -/
def plainPaths (p q : Canonical) (text : Chars) : Except Errno Canonical :=
  if text = p.text then .ok p else .ok q

def requestFor (p : Canonical) : CopyFileRequest := { freshRequest with path := p.text }

theorem text_conf_isolated :
    Isolated (plainPaths textPath confPath) (requestFor textPath) (requestFor confPath)
      textPath confPath :=
  (isolated_iff _ _ _ _ _ (if_pos rfl) (if_neg (by decide)) (List.suffix_cons _ _)
    (List.suffix_cons _ _) (by decide)).2 (by decide)

/-- Files whose names differ in the extension only are mixed. -/
theorem text_json_mixed :
    textPath.names ≠ jsonPath.names ∧
      ¬ Isolated (plainPaths textPath jsonPath) (requestFor textPath) (requestFor jsonPath)
        textPath jsonPath := by
  have hne : textPath.names ≠ jsonPath.names := by decide
  obtain ⟨disk, h⟩ := exists_shared (p := textPath) (q := jsonPath) (by decide) (by decide) hne
    (by decide) (by decide)
  exact ⟨hne, not_isolated_of_shared (if_pos rfl) (if_neg (by decide)) (List.suffix_cons _ _)
    (List.suffix_cons _ _) h⟩

end KataAgent
