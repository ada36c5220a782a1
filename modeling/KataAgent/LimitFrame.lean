import KataAgent.MemoryLimits
import KataAgent.SearchPattern

namespace KataAgent
open Fallible
set_option autoImplicit true

/-- A write that a setter does for an update. -/
structure WriteCommand where
  file : Chars
  forgiven : Errno → Bool
  text : Chars

def runWrites (g : ControlGuest) (dir : Chars) (cs : List WriteCommand) : Setting Unit :=
  cs.forM fun c => g.write dir c.file c.forgiven c.text

def nonzeroCommands (file : Chars) (forgiven : Errno → Bool) (v : Int) : List WriteCommand :=
  if v ≠ 0 then [⟨file, forgiven, intText v⟩] else []

def textCommands (file text : Chars) : List WriteCommand :=
  if text ≠ [] then [⟨file, invalidArgument, text⟩] else []

def deviceCommand (d : LinuxDeviceCgroup) : WriteCommand :=
  ⟨if d.allow then DEVICES_ALLOW else DEVICES_DENY, noError, deviceRule d⟩

def rateCommands (file : Chars) (ds : List LinuxThrottleDevice) : List WriteCommand :=
  ds.map fun d => ⟨file, missingDevice, rate d⟩

def Cpu.commands (cpu : LinuxCPU) : List WriteCommand :=
  nonzeroCommands CPU_RT_PERIOD_US permissionDenied cpu.realtimePeriod ++
  nonzeroCommands CPU_RT_RUNTIME_US permissionDenied cpu.realtimeRuntime ++
  nonzeroCommands CPU_SHARES noError cpu.shares ++
  nonzeroCommands CPU_CFS_QUOTA_US noError cpu.quota ++
  nonzeroCommands CPU_CFS_PERIOD_US noError cpu.period

def Memory.commands (memory : LinuxMemory) : List WriteCommand :=
  nonzeroCommands MEMORY_LIMIT noError memory.limit ++
  nonzeroCommands MEMORY_SOFT_LIMIT noError memory.reservation ++
  nonzeroCommands MEMSW_LIMIT permissionDenied memory.swap ++
  nonzeroCommands KMEM_LIMIT permissionDenied memory.kernel ++
  nonzeroCommands KMEM_TCP_LIMIT noError memory.kernelTCP ++
  (if memory.swappiness ≤ 100 then [⟨SWAPPINESS, noError, decimalText memory.swappiness⟩]
    else []) ++
  (if memory.disableOOMKiller = true then [⟨OOM_CONTROL, noError, ['1']⟩] else [])

def Blkio.commands (blkio : LinuxBlockIO) : List WriteCommand :=
  nonzeroCommands BLKIO_WEIGHT noError blkio.weight ++
  nonzeroCommands BLKIO_LEAF_WEIGHT noError blkio.leafWeight ++
  blkio.weightDevice.flatMap (fun d =>
    [⟨BLKIO_WEIGHT_DEVICE, missingDevice, (weight d).1⟩,
      ⟨BLKIO_LEAF_WEIGHT_DEVICE, missingDevice, (weight d).2⟩]) ++
  rateCommands BLKIO_READ_BPS_DEVICE blkio.throttleReadBpsDevice ++
  rateCommands BLKIO_WRITE_BPS_DEVICE blkio.throttleWriteBpsDevice ++
  rateCommands BLKIO_READ_IOPS_DEVICE blkio.throttleReadIOPSDevice ++
  rateCommands BLKIO_WRITE_IOPS_DEVICE blkio.throttleWriteIOPSDevice

/-- What a subsystem writes for an update. -/
def Subsystem.commands (r : CgroupResources) : Subsystem → List WriteCommand
  | .CpuSet =>
    textCommands CPUSET_CPUS (r.cpu.elim [] LinuxCPU.cpus) ++
      textCommands CPUSET_MEMS (r.cpu.elim [] LinuxCPU.mems)
  | .Cpu => r.cpu.elim [] Cpu.commands
  | .Devices =>
    r.devices.map deviceCommand ++
      DEFAULT_DEVICES.map (fun d => deviceCommand ⟨true, d.type, d.major, d.minor, "rwm"⟩) ++
      DEFAULT_ALLOWED_DEVICES.map deviceCommand
  | .Memory => r.memory.elim [] Memory.commands
  | .Pids => r.pids.elim [] fun pids =>
    [⟨PIDS_MAX, noError, if pids.limit > 0 then intText pids.limit else "max".toList⟩]
  | .Blkio => r.blockIO.elim [] Blkio.commands
  | .HugeTLB => r.hugepageLimits.map fun l => ⟨hugepageFile l, noError, decimalText l.limit⟩
  | .NetCls => r.network.elim [] fun network =>
    nonzeroCommands NET_CLS_CLASSID noError network.classID
  | .NetPrio => r.network.elim [] fun network => network.priorities.map fun p =>
    ⟨NET_PRIO_IFPRIOMAP, invalidArgument, p.name ++ ' ' :: decimalText p.priority⟩
  | .CpuAcct | .PerfEvent | .Freezer | .Named => []

section
variable {g : ControlGuest} {dir : Chars} {as bs cs : List WriteCommand} {x y : Setting Unit}

theorem runWrites_append :
    runWrites g dir (as ++ bs) = (do runWrites g dir as; runWrites g dir bs) :=
  Act.forM_append

theorem runWrites_singleton (c : WriteCommand) :
    runWrites g dir [c] = g.write dir c.file c.forgiven c.text :=
  Act.bind_pure (g.write dir c.file c.forgiven c.text)

theorem runWrites_cons (c : WriteCommand) :
    runWrites g dir (c :: cs) = (do g.write dir c.file c.forgiven c.text; runWrites g dir cs) := rfl

theorem runWrites_map {α : Type} (l : List α) (f : α → WriteCommand) :
    runWrites g dir (l.map f) =
      l.forM fun a => g.write dir (f a).file (f a).forgiven (f a).text := by
  induction l with
  | nil => rfl
  | cons a l ih =>
    rw [List.map_cons, runWrites_cons, ih]
    rfl

theorem runWrites_flatMap {α : Type} (l : List α) (f : α → List WriteCommand) :
    runWrites g dir (l.flatMap f) = l.forM fun a => runWrites g dir (f a) := by
  induction l with
  | nil => rfl
  | cons a l ih =>
    rw [List.flatMap_cons, runWrites_append, ih]
    rfl

theorem setIf_runWrites {c : Prop} [Decidable c] (hx : x = runWrites g dir cs) :
    setIf c x = runWrites g dir (if c then cs else []) := by
  rw [setIf, hx]
  split
  · rfl
  · rfl

theorem writeFile_eq (file v : Chars) :
    writeFile g dir file v = runWrites g dir [⟨file, noError, v⟩] :=
  (runWrites_singleton ⟨file, noError, v⟩).symm

theorem writeNonzero_eq (file : Chars) (v : Int) :
    writeNonzero g dir file v = runWrites g dir (nonzeroCommands file noError v) :=
  setIf_runWrites (writeFile_eq file (intText v))

theorem tryWriteNonzero_eq (file : Chars) (v : Int) :
    tryWriteNonzero g dir file v = runWrites g dir (nonzeroCommands file permissionDenied v) :=
  setIf_runWrites (runWrites_singleton ⟨file, permissionDenied, intText v⟩).symm

theorem setCpus_eq (cpus mems : Chars) : setCpus g dir cpus mems =
    runWrites g dir (textCommands CPUSET_CPUS cpus ++ textCommands CPUSET_MEMS mems) := by
  have htext (file text : Chars) : setIf (text ≠ []) (tryWriteFile g dir file text) =
      runWrites g dir (textCommands file text) :=
    setIf_runWrites (runWrites_singleton ⟨file, invalidArgument, text⟩).symm
  rw [setCpus, htext, htext, runWrites_append]

theorem Devices.set_eq (r : CgroupResources) :
    Devices.set g dir r = runWrites g dir (Subsystem.Devices.commands r) := by
  have hdevices (ds : List LinuxDeviceCgroup) :
      ds.forM (fun d => writeDevice g dir d) = runWrites g dir (ds.map deviceCommand) :=
    (runWrites_map ds deviceCommand).symm
  have hdefault : DEFAULT_DEVICES.forM
      (fun d => writeDevice g dir ⟨true, d.type, d.major, d.minor, "rwm"⟩) =
      runWrites g dir (DEFAULT_DEVICES.map fun d =>
        deviceCommand ⟨true, d.type, d.major, d.minor, "rwm"⟩) := by
    rw [runWrites_map]
    rfl
  rw [Devices.set, hdevices, hdefault, hdevices, Subsystem.commands, runWrites_append,
    runWrites_append, Act.bind_assoc]

theorem Memory.set_eq (r : CgroupResources) :
    Memory.set g dir r true = runWrites g dir (Subsystem.Memory.commands r) := by
  rw [Memory.set, Subsystem.commands]
  cases r.memory with
  | none => rfl
  | some memory =>
    have hinit (x y : Setting Unit) : (do setIf (true = false) x; y) = y := by
      rw [setIf, if_neg Bool.noConfusion]
      rfl
    dsimp only [Option.elim_some]
    rw [hinit, writeNonzero_eq, writeNonzero_eq, tryWriteNonzero_eq, tryWriteNonzero_eq,
      writeNonzero_eq, setIf_runWrites (writeFile_eq SWAPPINESS _),
      setIf_runWrites (writeFile_eq OOM_CONTROL _), Memory.commands]
    simp only [runWrites_append, Act.bind_assoc]

theorem Blkio.set_eq (r : CgroupResources) :
    Blkio.set g dir r = runWrites g dir (Subsystem.Blkio.commands r) := by
  rw [Blkio.set, Subsystem.commands]
  cases r.blockIO with
  | none => rfl
  | some blkio =>
    have hrate (file : Chars) (ds : List LinuxThrottleDevice) :
        ds.forM (fun d => writeBlkioDevice g dir file (rate d)) =
          runWrites g dir (rateCommands file ds) := by
      rw [rateCommands, runWrites_map]
      rfl
    have hweight : blkio.weightDevice.forM (fun d => do
        writeBlkioDevice g dir BLKIO_WEIGHT_DEVICE (weight d).1
        writeBlkioDevice g dir BLKIO_LEAF_WEIGHT_DEVICE (weight d).2) =
        runWrites g dir (blkio.weightDevice.flatMap fun d =>
          [⟨BLKIO_WEIGHT_DEVICE, missingDevice, (weight d).1⟩,
            ⟨BLKIO_LEAF_WEIGHT_DEVICE, missingDevice, (weight d).2⟩]) := by
      rw [runWrites_flatMap]
      congr 1
      funext d
      rw [runWrites_cons, runWrites_singleton]
      rfl
    dsimp only [Option.elim_some]
    rw [writeNonzero_eq, writeNonzero_eq, hweight, hrate, hrate, hrate, hrate, Blkio.commands]
    simp only [runWrites_append, Act.bind_assoc]

theorem Cpu.set_eq (r : CgroupResources) :
    Cpu.set g dir r = runWrites g dir (Subsystem.Cpu.commands r) := by
  rw [Cpu.set, Subsystem.commands]
  cases r.cpu with
  | none => rfl
  | some cpu =>
    dsimp only [Option.elim_some]
    rw [tryWriteNonzero_eq, tryWriteNonzero_eq, writeNonzero_eq, writeNonzero_eq, writeNonzero_eq,
      Cpu.commands]
    simp only [runWrites_append, Act.bind_assoc]

theorem Subsystem.set_update (sub : Subsystem) (r : CgroupResources) :
    sub.set g dir r true = runWrites g dir (sub.commands r) := by
  cases sub with
  | CpuSet => exact setCpus_eq _ _
  | Cpu => exact Cpu.set_eq r
  | Devices => exact Devices.set_eq r
  | Memory => exact Memory.set_eq r
  | Pids =>
    rw [Subsystem.set, Pids.set, Subsystem.commands]
    cases r.pids with
    | none => rfl
    | some pids => exact writeFile_eq _ _
  | Blkio => exact Blkio.set_eq r
  | HugeTLB =>
    rw [Subsystem.commands, runWrites_map]
    rfl
  | NetCls =>
    rw [Subsystem.set, NetCls.set, Subsystem.commands]
    cases r.network with
    | none => rfl
    | some network => exact writeNonzero_eq _ _
  | NetPrio =>
    rw [Subsystem.set, NetPrio.set, Subsystem.commands]
    cases r.network with
    | none => rfl
    | some network =>
      rw [Option.elim_some, runWrites_map]
      rfl
  | CpuAcct => rfl
  | PerfEvent => rfl
  | Freezer => rfl
  | Named => rfl

/-- What a request specifies by a number, which is not 0 then. -/
def givenNumber (v : Int) : List Chars := if v ≠ 0 then [intText v] else []

def givenText (text : Chars) : List Chars := if text ≠ [] then [text] else []

def givenRates (ds : List LinuxThrottleDevice) : List Chars :=
  (ds.filter fun d => d.rate ≠ 0).map rate

/-- The files of limits, with their controller and what a request specifies for them. -/
def limitTable (r : CgroupResources) : List (Chars × Chars × List Chars) :=
  let cpu (f : LinuxCPU → Int) := r.cpu.elim [] fun cpu => givenNumber (f cpu)
  let memory (f : LinuxMemory → Int) := r.memory.elim [] fun memory => givenNumber (f memory)
  let blkio (f : LinuxBlockIO → List Chars) := r.blockIO.elim [] f
  [(CPUSET_CPUS, "cpuset".toList, givenText (r.cpu.elim [] LinuxCPU.cpus)),
    (CPUSET_MEMS, "cpuset".toList, givenText (r.cpu.elim [] LinuxCPU.mems)),
    (CPU_RT_PERIOD_US, "cpu".toList, cpu fun cpu => cpu.realtimePeriod),
    (CPU_RT_RUNTIME_US, "cpu".toList, cpu fun cpu => cpu.realtimeRuntime),
    (CPU_SHARES, "cpu".toList, cpu fun cpu => cpu.shares),
    (CPU_CFS_QUOTA_US, "cpu".toList, cpu fun cpu => cpu.quota),
    (CPU_CFS_PERIOD_US, "cpu".toList, cpu fun cpu => cpu.period),
    (MEMORY_LIMIT, "memory".toList, memory fun memory => memory.limit),
    (MEMORY_SOFT_LIMIT, "memory".toList, memory fun memory => memory.reservation),
    (MEMSW_LIMIT, "memory".toList, memory fun memory => memory.swap),
    (KMEM_LIMIT, "memory".toList, memory fun memory => memory.kernel),
    (KMEM_TCP_LIMIT, "memory".toList, memory fun memory => memory.kernelTCP),
    (SWAPPINESS, "memory".toList, memory fun memory => memory.swappiness),
    (OOM_CONTROL, "memory".toList,
      r.memory.elim [] fun memory => if memory.disableOOMKiller = true then [['1']] else []),
    (BLKIO_WEIGHT, "blkio".toList, blkio fun blkio => givenNumber blkio.weight),
    (BLKIO_LEAF_WEIGHT, "blkio".toList, blkio fun blkio => givenNumber blkio.leafWeight),
    (BLKIO_WEIGHT_DEVICE, "blkio".toList, blkio fun blkio =>
      (blkio.weightDevice.filter fun d => d.weight ≠ 0).map fun d => (weight d).1),
    (BLKIO_LEAF_WEIGHT_DEVICE, "blkio".toList, blkio fun blkio =>
      (blkio.weightDevice.filter fun d => d.leafWeight ≠ 0).map fun d => (weight d).2),
    (BLKIO_READ_BPS_DEVICE, "blkio".toList,
      blkio fun blkio => givenRates blkio.throttleReadBpsDevice),
    (BLKIO_WRITE_BPS_DEVICE, "blkio".toList,
      blkio fun blkio => givenRates blkio.throttleWriteBpsDevice),
    (BLKIO_READ_IOPS_DEVICE, "blkio".toList,
      blkio fun blkio => givenRates blkio.throttleReadIOPSDevice),
    (BLKIO_WRITE_IOPS_DEVICE, "blkio".toList,
      blkio fun blkio => givenRates blkio.throttleWriteIOPSDevice),
    (NET_CLS_CLASSID, "net_cls".toList,
      r.network.elim [] fun network => givenNumber network.classID)]

/-- An update changes no limit that the request does not specify: what the writes of the specified
fields keep of a limit's file, the update keeps. -/
def KeepsUnspecified (m : Manager) (r : CgroupResources) : Prop :=
  ∀ (g : ControlGuest) (s : Contents Chars) (keys : List Chars), Visits m.paths keys →
    ∀ file key texts dir, (limitTable r).lookup file = some (key, texts) →
      m.paths.lookup key = some dir → ∀ I : Chars → Prop,
      (∀ s v, ∀ text ∈ texts, s (filePath dir file) = some v → I v →
        I (g.stores s (filePath dir file) text)) →
      ∀ v, s (filePath dir file) = some v → I v →
        ∃ w, (m.set g r true keys s).2 (filePath dir file) = some w ∧ I w

/-- The file of a limit for which nothing is specified is as it was. -/
theorem KeepsUnspecified.unchanged {m : Manager} {r : CgroupResources} (h : KeepsUnspecified m r)
    {g : ControlGuest} {s : Contents Chars} {keys : List Chars} (hk : Visits m.paths keys)
    {file key dir v : Chars} (hl : (limitTable r).lookup file = some (key, []))
    (hd : m.paths.lookup key = some dir) (hs : s (filePath dir file) = some v) :
    (m.set g r true keys s).2 (filePath dir file) = some v := by
  obtain ⟨w, hw, rfl⟩ := h g s keys hk file key [] dir hl hd (fun w => w = v)
    (fun _ _ _ ht => absurd ht List.not_mem_nil) v hs rfl
  exact hw

/-- Every entry for a device has all its limits. -/
def LinuxBlockIO.Filled (blkio : LinuxBlockIO) : Prop :=
  (∀ d ∈ blkio.weightDevice, d.weight ≠ 0 ∧ d.leafWeight ≠ 0) ∧
    ∀ d ∈ blkio.throttleReadBpsDevice ++ blkio.throttleWriteBpsDevice ++
      blkio.throttleReadIOPSDevice ++ blkio.throttleWriteIOPSDevice, d.rate ≠ 0

/-- No limit of huge pages leads to one of these files, unless what it writes is specified there. -/
def HugepagesApart (m : Manager) (r : CgroupResources) : Prop :=
  ∀ dir, m.paths.lookup "hugetlb".toList = some dir → ∀ l ∈ r.hugepageLimits,
    ∀ file key texts dir', (limitTable r).lookup file = some (key, texts) →
      m.paths.lookup key = some dir' → filePath dir (hugepageFile l) = filePath dir' file →
        decimalText l.limit ∈ texts

/-- The file has a plain name and, if it is one of a limit, the text is specified for it. -/
def Harmless (r : CgroupResources) (c : WriteCommand) : Prop :=
  '/' ∉ c.file ∧ ∀ key texts, (limitTable r).lookup c.file = some (key, texts) → c.text ∈ texts

theorem limitTable_plain {r : CgroupResources} {file : Chars} {x : Chars × List Chars}
    (h : (limitTable r).lookup file = some x) : '/' ∉ file := by
  have hnames : ∀ e ∈ limitTable r, '/' ∉ e.1 := by
    have hall : ∀ f ∈ (limitTable r).map Prod.fst, '/' ∉ f := by
      rw [limitTable]
      simp only [List.map_cons, List.map_nil]
      decide
    intro e he
    exact hall e.1 (List.mem_map_of_mem he)
  obtain ⟨l₁, l₂, hl, -⟩ := List.lookup_eq_some_iff.1 h
  exact hnames (file, x) (by rw [hl]; exact List.mem_append_right _ List.mem_cons_self)

theorem harmless_of_given {r : CgroupResources} {c : WriteCommand} {key : Chars}
    {texts : List Chars} (hl : (limitTable r).lookup c.file = some (key, texts))
    (ht : c.text ∈ texts) : Harmless r c := by
  refine ⟨limitTable_plain hl, fun key' texts' h => ?_⟩
  rw [hl] at h
  cases h
  exact ht

theorem harmless_nonzero {r : CgroupResources} {file key : Chars} {texts : List Chars}
    {forgiven : Errno → Bool} {v : Int} {c : WriteCommand}
    (hl : (limitTable r).lookup file = some (key, texts)) (ht : texts = givenNumber v)
    (hc : c ∈ nonzeroCommands file forgiven v) : Harmless r c := by
  obtain ⟨hv, hc⟩ := List.mem_ite_nil_right.1 hc
  cases List.mem_singleton.1 hc
  apply harmless_of_given hl
  rw [ht, givenNumber, if_pos hv]
  exact List.mem_singleton_self _

theorem harmless_text {r : CgroupResources} {file key text : Chars} {c : WriteCommand}
    (hl : (limitTable r).lookup file = some (key, givenText text))
    (hc : c ∈ textCommands file text) : Harmless r c := by
  obtain ⟨hv, hc⟩ := List.mem_ite_nil_right.1 hc
  cases List.mem_singleton.1 hc
  apply harmless_of_given hl
  rw [givenText, if_pos hv]
  exact List.mem_singleton_self _

theorem harmless_rate {r : CgroupResources} {file key : Chars} {texts : List Chars}
    {ds : List LinuxThrottleDevice} {c : WriteCommand}
    (hl : (limitTable r).lookup file = some (key, texts)) (ht : texts = givenRates ds)
    (hd : ∀ d ∈ ds, d.rate ≠ 0) (hc : c ∈ rateCommands file ds) : Harmless r c := by
  obtain ⟨d, hin, rfl⟩ := List.mem_map.1 hc
  apply harmless_of_given hl
  rw [ht, givenRates]
  exact List.mem_map_of_mem (List.mem_filter.2 ⟨hin, decide_eq_true (hd d hin)⟩)

theorem harmless_of_none {r : CgroupResources} {c : WriteCommand} (hf : '/' ∉ c.file)
    (hl : (limitTable r).lookup c.file = none) : Harmless r c := by
  refine ⟨hf, fun key texts h => ?_⟩
  rw [hl] at h
  cases h

theorem Cpu.harmless {r : CgroupResources} {cpu : LinuxCPU} {c : WriteCommand}
    (hr : r.cpu = some cpu) (hc : c ∈ Cpu.commands cpu) : Harmless r c := by
  simp only [Cpu.commands, List.mem_append] at hc
  rcases hc with (((hc | hc) | hc) | hc) | hc
  · exact harmless_nonzero rfl (by rw [hr]; rfl) hc
  · exact harmless_nonzero rfl (by rw [hr]; rfl) hc
  · exact harmless_nonzero rfl (by rw [hr]; rfl) hc
  · exact harmless_nonzero rfl (by rw [hr]; rfl) hc
  · exact harmless_nonzero rfl (by rw [hr]; rfl) hc

/-- The swappiness is written even when it is not specified. -/
theorem Memory.harmless {r : CgroupResources} {memory : LinuxMemory} {c : WriteCommand}
    (hr : r.memory = some memory) (hc : c ∈ Memory.commands memory) :
    Harmless r c ∨ memory.swappiness = 0 := by
  simp only [Memory.commands, List.mem_append] at hc
  rcases hc with (((((hc | hc) | hc) | hc) | hc) | hc) | hc
  · exact .inl (harmless_nonzero rfl (by rw [hr]; rfl) hc)
  · exact .inl (harmless_nonzero rfl (by rw [hr]; rfl) hc)
  · exact .inl (harmless_nonzero rfl (by rw [hr]; rfl) hc)
  · exact .inl (harmless_nonzero rfl (by rw [hr]; rfl) hc)
  · exact .inl (harmless_nonzero rfl (by rw [hr]; rfl) hc)
  · obtain ⟨-, hc⟩ := List.mem_ite_nil_right.1 hc
    cases List.mem_singleton.1 hc
    by_cases hs : memory.swappiness = 0
    · exact .inr hs
    · have hgiven : decimalText memory.swappiness ∈
          r.memory.elim [] fun memory => givenNumber memory.swappiness := by
        rw [hr, Option.elim_some, givenNumber, if_pos (Int.natCast_ne_zero.2 hs)]
        exact List.mem_singleton_self _
      exact .inl (harmless_of_given rfl hgiven)
  · obtain ⟨ho, hc⟩ := List.mem_ite_nil_right.1 hc
    cases List.mem_singleton.1 hc
    have hgiven : ['1'] ∈ r.memory.elim []
        fun memory => if memory.disableOOMKiller = true then [['1']] else [] := by
      rw [hr, Option.elim_some, if_pos ho]
      exact List.mem_singleton_self _
    exact .inl (harmless_of_given rfl hgiven)

/-- The entries for devices are written whole. -/
theorem Blkio.harmless {r : CgroupResources} {blkio : LinuxBlockIO} {c : WriteCommand}
    (hr : r.blockIO = some blkio) (hf : blkio.Filled) (hc : c ∈ Blkio.commands blkio) :
    Harmless r c := by
  obtain ⟨hweights, hrates⟩ := hf
  simp only [List.forall_mem_append] at hrates
  obtain ⟨⟨⟨hreadBps, hwriteBps⟩, hreadIops⟩, hwriteIops⟩ := hrates
  simp only [Blkio.commands, List.mem_append] at hc
  rcases hc with (((((hc | hc) | hc) | hc) | hc) | hc) | hc
  · exact harmless_nonzero rfl (by rw [hr]; rfl) hc
  · exact harmless_nonzero rfl (by rw [hr]; rfl) hc
  · obtain ⟨d, hd, hc⟩ := List.mem_flatMap.1 hc
    obtain ⟨hw, hlw⟩ := hweights d hd
    rcases List.mem_pair.1 hc with rfl | rfl
    · have hgiven : (weight d).1 ∈ r.blockIO.elim [] fun blkio =>
          (blkio.weightDevice.filter fun d => d.weight ≠ 0).map fun d => (weight d).1 := by
        rw [hr, Option.elim_some]
        exact List.mem_map_of_mem (List.mem_filter.2 ⟨hd, decide_eq_true hw⟩)
      exact harmless_of_given rfl hgiven
    · have hgiven : (weight d).2 ∈ r.blockIO.elim [] fun blkio =>
          (blkio.weightDevice.filter fun d => d.leafWeight ≠ 0).map fun d => (weight d).2 := by
        rw [hr, Option.elim_some]
        exact List.mem_map_of_mem (List.mem_filter.2 ⟨hd, decide_eq_true hlw⟩)
      exact harmless_of_given rfl hgiven
  · exact harmless_rate rfl (by rw [hr]; rfl) hreadBps hc
  · exact harmless_rate rfl (by rw [hr]; rfl) hwriteBps hc
  · exact harmless_rate rfl (by rw [hr]; rfl) hreadIops hc
  · exact harmless_rate rfl (by rw [hr]; rfl) hwriteIops hc

/-- What a subsystem writes is harmless, but for the swappiness, the entries for devices and the limits
of huge pages. -/
theorem Subsystem.harmless {r : CgroupResources} {sub : Subsystem} {c : WriteCommand}
    (hc : c ∈ sub.commands r) : Harmless r c ∨
      (sub = .Memory ∧ ∃ memory, r.memory = some memory ∧ memory.swappiness = 0) ∨
      (sub = .Blkio ∧ ∃ blkio, r.blockIO = some blkio ∧ ¬ blkio.Filled) ∨
      sub = .HugeTLB ∧ ∃ l ∈ r.hugepageLimits, c.file = hugepageFile l ∧
        c.text = decimalText l.limit := by
  have helim {α : Type} {o : Option α} {f : α → List WriteCommand} (h : c ∈ o.elim [] f) :
      ∃ a, o = some a ∧ c ∈ f a := by
    cases o with
    | none => cases h
    | some a => exact ⟨a, rfl, h⟩
  cases sub with
  | CpuSet =>
    rcases List.mem_append.1 hc with hc | hc
    · exact .inl (harmless_text rfl hc)
    · exact .inl (harmless_text rfl hc)
  | Cpu =>
    obtain ⟨cpu, hr, hc⟩ := helim hc
    exact .inl (Cpu.harmless hr hc)
  | Devices =>
    have hdevice (d : LinuxDeviceCgroup) : Harmless r (deviceCommand d) := by
      have hplain : '/' ∉ DEVICES_ALLOW ∧ '/' ∉ DEVICES_DENY := by decide
      rw [deviceCommand]
      cases d.allow with
      | true => exact harmless_of_none hplain.1 rfl
      | false => exact harmless_of_none hplain.2 rfl
    rcases List.mem_append.1 hc with hc | hc
    · rcases List.mem_append.1 hc with hc | hc
      · obtain ⟨d, -, rfl⟩ := List.mem_map.1 hc
        exact .inl (hdevice d)
      · obtain ⟨d, -, rfl⟩ := List.mem_map.1 hc
        exact .inl (hdevice _)
    · obtain ⟨d, -, rfl⟩ := List.mem_map.1 hc
      exact .inl (hdevice d)
  | Memory =>
    obtain ⟨memory, hr, hc⟩ := helim hc
    rcases Memory.harmless hr hc with h | hs
    · exact .inl h
    · exact .inr (.inl ⟨rfl, memory, hr, hs⟩)
  | Pids =>
    obtain ⟨pids, -, hc⟩ := helim hc
    cases List.mem_singleton.1 hc
    have hplain : '/' ∉ PIDS_MAX := by decide
    exact .inl (harmless_of_none hplain rfl)
  | Blkio =>
    obtain ⟨blkio, hr, hc⟩ := helim hc
    by_cases hf : blkio.Filled
    · exact .inl (Blkio.harmless hr hf hc)
    · exact .inr (.inr (.inl ⟨rfl, blkio, hr, hf⟩))
  | HugeTLB =>
    obtain ⟨l, hl, rfl⟩ := List.mem_map.1 hc
    exact .inr (.inr (.inr ⟨rfl, l, hl, rfl, rfl⟩))
  | NetCls =>
    obtain ⟨network, hr, hc⟩ := helim hc
    exact .inl (harmless_nonzero rfl (by rw [hr]; rfl) hc)
  | NetPrio =>
    obtain ⟨network, -, hc⟩ := helim hc
    obtain ⟨p, -, rfl⟩ := List.mem_map.1 hc
    have hplain : '/' ∉ NET_PRIO_IFPRIOMAP := by decide
    exact .inl (harmless_of_none hplain rfl)
  | CpuAcct => cases hc
  | PerfEvent => cases hc
  | Freezer => cases hc
  | Named => cases hc

/-- A path without a slash in its last part has one last part. -/
theorem filePath_file_inj {dir dir' file file' : Chars} (h : '/' ∉ file) (h' : '/' ∉ file')
    (heq : filePath dir file = filePath dir' file') : dir = dir' ∧ file = file' := by
  have hlast {dir : Chars} : ∀ c ∈ (dir ++ ['/']).getLast?, decide (c ≠ '/') = false := by
    intro c hc
    rw [List.getLast?_concat] at hc
    cases hc
    rfl
  have hrun {file : Chars} (hf : '/' ∉ file) : ∀ c ∈ file, decide (c ≠ '/') = true := by
    intro c hc
    exact decide_eq_true (ne_of_mem_of_not_mem hc hf)
  have happend : (dir ++ ['/']) ++ file = (dir' ++ ['/']) ++ file' := by
    rw [List.append_assoc, List.append_assoc]
    exact heq
  obtain ⟨hdir, hfile⟩ := append_run_inj hlast hlast (hrun h) (hrun h') happend
  exact ⟨List.append_cancel_right hdir, hfile⟩

theorem runWrites_preserves {I : Contents Chars → Prop}
    (h : ∀ c ∈ cs, Act.Preserves I (g.write dir c.file c.forgiven c.text)) :
    Act.Preserves I (runWrites g dir cs) := .forM h

/-- A write keeps what the texts that may go to the file keep. -/
theorem write_keeps {file v p : Chars} {forgiven : Errno → Bool} {texts : List Chars}
    {I : Chars → Prop}
    (hI : ∀ s w, ∀ text ∈ texts, s p = some w → I w → I (g.stores s p text))
    (h : filePath dir file = p → v ∈ texts) :
    Act.Preserves (fun s => ∃ w, s p = some w ∧ I w) (g.write dir file forgiven v) := by
  intro s hs
  rw [ControlGuest.write]
  split
  · exact hs
  · obtain ⟨w, hw, hI'⟩ := hs
    by_cases hp : filePath dir file = p
    · rw [hp]
      exact ⟨_, Function.update_self _ _ _, hI s w v (h hp) hw hI'⟩
    · exact ⟨w, (Function.update_of_ne (Ne.symm hp) _ _).trans hw, hI'⟩

/-- What every write and every new directory keeps, an update keeps. -/
theorem Manager.set_preserves {m : Manager} {r : CgroupResources} {I : Contents Chars → Prop}
    {keys : List Chars} (hmake : ∀ dir s, I s → I (g.makes dir s))
    (hw : ∀ key dir sub, m.paths.lookup key = some dir → getSubsystem key = .ok sub →
      ∀ c ∈ sub.commands r, Act.Preserves I (g.write dir c.file c.forgiven c.text)) :
    Act.Preserves I (m.set g r true keys) := by
  apply Act.Preserves.forM
  intro key _
  cases hdir : m.paths.lookup key with
  | none =>
    rw [Manager.setKey_of_none hdir]
    exact .pure ()
  | some dir =>
    rw [Manager.setKey_of_lookup hdir]
    apply (Act.Preserves.modify (hmake dir)).bind
    intro _
    refine (Act.Preserves.lift (getSubsystem key)).bind_ok fun s sub t _ hsub ht => ?_
    have hok : getSubsystem key = .ok sub := congrArg Prod.fst hsub
    rw [Subsystem.set_update]
    exact runWrites_preserves (hw key dir sub hdir hok) t ht

/-- Every write is accepted, and leaves a mark, unless its text is one of these. -/
def markingGuest (texts : List Chars) : ControlGuest where
  unreadable _ _ := none
  refuses _ _ _ := none
  stores s p text := if texts.elem text then (s p).getD [] else ['x']
  makes _ s := s
  strerror _ := ""
  stack := 64
  makes_keeps _ _ _ _ h := h

theorem marking_preserves {texts : List Chars} {file v p : Chars} {forgiven : Errno → Bool} :
    Act.Preserves (fun s => s p = some ['x'])
      ((markingGuest texts).write dir file forgiven v) := by
  intro s hs
  by_cases hp : p = filePath dir file
  · have hstored : (if texts.elem v then (s p).getD [] else ['x']) = ['x'] := by
      rw [hs]
      exact ite_self _
    rw [hp] at hstored ⊢
    exact (Function.update_self _ _ _).trans (congrArg some hstored)
  · exact (Function.update_of_ne hp _ _).trans hs

theorem marking_runWrites (dir : Chars) (texts : List Chars) (cs : List WriteCommand)
    (s : Contents Chars) :
    ∃ t, runWrites (markingGuest texts) dir cs s = (.ok (), t) ∧
      ∀ c ∈ cs, c.text ∉ texts → t (filePath dir c.file) = some ['x'] := by
  induction cs generalizing s with
  | nil => exact ⟨s, rfl, fun _ h => absurd h List.not_mem_nil⟩
  | cons c cs ih =>
    obtain ⟨t, ht, hcs⟩ := ih ((markingGuest texts).write dir c.file c.forgiven c.text s).2
    refine ⟨t, ht, List.forall_mem_cons.2 ⟨?_, hcs⟩⟩
    intro hc
    have hkeep : Act.Preserves (fun s => s (filePath dir c.file) = some ['x'])
        (runWrites (markingGuest texts) dir cs) := runWrites_preserves fun _ _ => marking_preserves
    have hstored : (if texts.elem c.text then (s (filePath dir c.file)).getD [] else ['x']) = ['x'] :=
      if_neg (mt List.elem_iff.1 hc)
    have hmark := hkeep ((markingGuest texts).write dir c.file c.forgiven c.text s).2
      ((Function.update_self _ _ _).trans (congrArg some hstored))
    rw [ht] at hmark
    exact hmark

theorem visits_first {m : Table Chars Chars} {key : Chars} (h : key ∈ m) :
    ∃ rest, Visits m (key :: rest) := by
  refine ⟨(m.keys.erase key).toList, ?_, fun k => ?_⟩
  · rw [List.nodup_cons, Finset.mem_toList]
    exact ⟨Finset.notMem_erase key _, Finset.nodup_toList _⟩
  · rw [List.mem_cons, Finset.mem_toList, Finset.mem_erase, Finmap.mem_keys]
    constructor
    · intro hk
      rcases hk with rfl | ⟨-, hk⟩
      · exact h
      · exact hk
    · intro hk
      by_cases heq : k = key
      · exact .inl heq
      · exact .inr ⟨heq, hk⟩

/-- In the order that starts with its controller, a write is seen. -/
theorem Manager.set_marks {m : Manager} {r : CgroupResources} {key dir : Chars} {sub : Subsystem}
    {c : WriteCommand} {texts : List Chars} (hdir : m.paths.lookup key = some dir)
    (hsub : getSubsystem key = .ok sub) (hc : c ∈ sub.commands r) (ht : c.text ∉ texts)
    (s : Contents Chars) : ∃ keys, Visits m.paths keys ∧
      (m.set (markingGuest texts) r true keys s).2 (filePath dir c.file) = some ['x'] := by
  have hkey : key ∈ m.paths := Finmap.lookup_isSome.1 (by rw [hdir]; rfl)
  obtain ⟨rest, hrest⟩ := visits_first hkey
  obtain ⟨t, hwrites, hmarks⟩ := marking_runWrites dir texts (sub.commands r) s
  refine ⟨key :: rest, hrest, ?_⟩
  have hset : m.set (markingGuest texts) r true (key :: rest) s =
      m.set (markingGuest texts) r true rest t := by
    have hfirst : m.setKey (markingGuest texts) r true key s = (.ok (), t) := by
      rw [Manager.setKey_of_lookup hdir, hsub, Act.bind_ok (Act.modify_apply _),
        Act.bind_ok (Act.lift_apply _), Subsystem.set_update]
      exact hwrites
    exact Act.bind_ok hfirst
  rw [hset]
  exact Manager.set_preserves (fun _ _ h => h) (fun _ _ _ _ _ _ _ => marking_preserves) t
    (hmarks c hc ht)

/-- What an update that keeps the limits writes to the file of a limit is specified there. -/
theorem KeepsUnspecified.specified {m : Manager} {r : CgroupResources} (h : KeepsUnspecified m r)
    {file : Chars} {key dir key' dir' : Chars} {texts : List Chars} {sub : Subsystem} {c : WriteCommand}
    (hdir : m.paths.lookup key = some dir) (hsub : getSubsystem key = .ok sub)
    (hc : c ∈ sub.commands r) (hl : (limitTable r).lookup file = some (key', texts))
    (hdir' : m.paths.lookup key' = some dir') (hp : filePath dir c.file = filePath dir' file) :
    c.text ∈ texts := by
  by_contra ht
  obtain ⟨keys, hkeys, hmark⟩ := Manager.set_marks hdir hsub hc ht fun _ => some []
  have hstores : ∀ (s : Contents Chars) (v : Chars), ∀ text ∈ texts,
      s (filePath dir' file) = some v → v = [] →
        (markingGuest texts).stores s (filePath dir' file) text = [] := by
    intro s v text htext hs hv
    have hstored : (if texts.elem text then (s (filePath dir' file)).getD [] else ['x']) = [] := by
      rw [if_pos (List.elem_iff.2 htext), hs, hv]
      rfl
    exact hstored
  obtain ⟨w, hw, rfl⟩ := h (markingGuest texts) (fun _ => some []) keys hkeys file key' texts dir'
    hl hdir' (fun w => w = []) hstores [] rfl rfl
  rw [hp, hw] at hmark
  cases hmark

/-- The value of an entry for a device is what follows the last blank. -/
theorem entryText_inj {a b a' b' : Int} {v v' : Nat}
    (h : intText a ++ ':' :: (intText b ++ ' ' :: decimalText v) =
      intText a' ++ ':' :: (intText b' ++ ' ' :: decimalText v')) : v = v' := by
  have hlast (x : Chars) : ∀ c ∈ (x ++ [' ']).getLast?, decide (c ≠ ' ') = false := by
    intro c hc
    rw [List.getLast?_concat] at hc
    cases hc
    rfl
  have hrun (n : Nat) : ∀ c ∈ decimalText n, decide (c ≠ ' ') = true := by
    intro c hc
    exact decide_eq_true (ne_of_mem_of_not_mem hc (notMem_decimalText rfl))
  have happend : ((intText a ++ ':' :: intText b) ++ [' ']) ++ decimalText v =
      ((intText a' ++ ':' :: intText b') ++ [' ']) ++ decimalText v' := by
    simpa only [List.append_assoc, List.cons_append, List.nil_append] using h
  exact decimalText_inj (append_run_inj (hlast _) (hlast _) (hrun v) (hrun v') happend).2

theorem rate_ne_zero {ds : List LinuxThrottleDevice} {d : LinuxThrottleDevice}
    (h : rate d ∈ givenRates ds) : d.rate ≠ 0 := by
  obtain ⟨d', hd, he⟩ := List.mem_map.1 h
  have hne : d'.rate ≠ 0 := of_decide_eq_true (List.mem_filter.1 hd).2
  rw [← entryText_inj he]
  exact hne

/-- An update that keeps the limits has no entry for a device with a limit left out. -/
theorem KeepsUnspecified.filled {m : Manager} {r : CgroupResources} (h : KeepsUnspecified m r)
    {dir : Chars} {blkio : LinuxBlockIO} (hdir : m.paths.lookup "blkio".toList = some dir)
    (hr : r.blockIO = some blkio) : blkio.Filled := by
  have hcommands : Subsystem.Blkio.commands r = Blkio.commands blkio := by
    rw [Subsystem.commands, hr, Option.elim_some]
  have htable {file : Chars} {texts : LinuxBlockIO → List Chars} {c : WriteCommand}
      (hl : (limitTable r).lookup file = some ("blkio".toList, r.blockIO.elim [] texts))
      (hc : c ∈ Blkio.commands blkio) (hf : c.file = file) : c.text ∈ texts blkio := by
    have hspec := h.specified hdir rfl (hcommands ▸ hc) hl hdir (by rw [hf])
    rw [hr, Option.elim_some] at hspec
    exact hspec
  have hrate (file : Chars) {ds : LinuxBlockIO → List LinuxThrottleDevice}
      (hl : (limitTable r).lookup file =
        some ("blkio".toList, r.blockIO.elim [] fun blkio => givenRates (ds blkio)))
      (hc : rateCommands file (ds blkio) ⊆ Blkio.commands blkio) :
      ∀ d ∈ ds blkio, d.rate ≠ 0 := by
    intro d hd
    have hmem : ⟨file, missingDevice, rate d⟩ ∈ rateCommands file (ds blkio) :=
      List.mem_map.2 ⟨d, hd, rfl⟩
    exact rate_ne_zero (htable hl (hc hmem) rfl)
  constructor
  · intro d hd
    have hmem : ∀ c ∈ [⟨BLKIO_WEIGHT_DEVICE, missingDevice, (weight d).1⟩,
        ⟨BLKIO_LEAF_WEIGHT_DEVICE, missingDevice, (weight d).2⟩], c ∈ Blkio.commands blkio := by
      intro c hc
      have hflat : c ∈ blkio.weightDevice.flatMap fun d =>
          [⟨BLKIO_WEIGHT_DEVICE, missingDevice, (weight d).1⟩,
            ⟨BLKIO_LEAF_WEIGHT_DEVICE, missingDevice, (weight d).2⟩] :=
        List.mem_flatMap.2 ⟨d, hd, hc⟩
      simp only [Blkio.commands, List.mem_append]
      exact .inl (.inl (.inl (.inl (.inr hflat))))
    rw [List.forall_mem_cons, List.forall_mem_singleton] at hmem
    constructor
    · obtain ⟨d', hd', he⟩ := List.mem_map.1 (htable rfl hmem.1 rfl)
      have hne : d'.weight ≠ 0 := of_decide_eq_true (List.mem_filter.1 hd').2
      rw [← entryText_inj he]
      exact hne
    · obtain ⟨d', hd', he⟩ := List.mem_map.1 (htable rfl hmem.2 rfl)
      have hne : d'.leafWeight ≠ 0 := of_decide_eq_true (List.mem_filter.1 hd').2
      rw [← entryText_inj he]
      exact hne
  · simp only [List.forall_mem_append]
    refine ⟨⟨⟨hrate BLKIO_READ_BPS_DEVICE rfl ?_,
      hrate BLKIO_WRITE_BPS_DEVICE rfl ?_⟩,
      hrate BLKIO_READ_IOPS_DEVICE rfl ?_⟩,
      hrate BLKIO_WRITE_IOPS_DEVICE rfl ?_⟩
    · intro c hc
      simp only [Blkio.commands, List.mem_append]
      exact .inl (.inl (.inl (.inr hc)))
    · intro c hc
      simp only [Blkio.commands, List.mem_append]
      exact .inl (.inl (.inr hc))
    · intro c hc
      simp only [Blkio.commands, List.mem_append]
      exact .inl (.inr hc)
    · intro c hc
      simp only [Blkio.commands, List.mem_append]
      exact .inr hc

end

/-- An update keeps the limits that are not specified, exactly if no swappiness of 0 is in it for a
memory controller, no entry for a device with a limit of 0 for a blkio controller, and no page size
leads to such a limit. -/
theorem keepsUnspecified_iff (m : Manager) (r : CgroupResources) : KeepsUnspecified m r ↔
    (∀ dir memory, m.paths.lookup "memory".toList = some dir → r.memory = some memory →
      memory.swappiness ≠ 0) ∧
    (∀ dir blkio, m.paths.lookup "blkio".toList = some dir → r.blockIO = some blkio →
      blkio.Filled) ∧ HugepagesApart m r := by
  constructor
  · intro hkeep
    refine ⟨?_, fun dir blkio hdir hr => hkeep.filled hdir hr, ?_⟩
    · intro dir memory hdir hr hs
      have hc : ⟨SWAPPINESS, noError, decimalText memory.swappiness⟩ ∈
          Subsystem.Memory.commands r := by
        rw [Subsystem.commands, hr, Option.elim_some, Memory.commands, hs]
        simp
      have hspec : decimalText memory.swappiness ∈
          r.memory.elim [] fun memory => givenNumber memory.swappiness :=
        @KeepsUnspecified.specified _ _ hkeep SWAPPINESS _ _ _ _ _ _ _ hdir rfl hc rfl hdir rfl
      rw [hr, Option.elim_some, hs] at hspec
      exact absurd hspec List.not_mem_nil
    · intro dir hdir l hl file key texts dir' hlookup hdir' hp
      exact hkeep.specified hdir rfl (List.mem_map_of_mem hl) hlookup hdir' hp
  · intro ⟨hmemory, hblkio, hapart⟩ g s keys _ file key texts dir hlookup hdir I hI v hs hv
    refine Manager.set_preserves
      (I := fun s => ∃ w, s (filePath dir file) = some w ∧ I w)
      (fun _ s h => h.imp fun w hw => ⟨g.makes_keeps _ _ _ _ hw.1, hw.2⟩)
      (fun key' dir' sub hdir' hsub c hc => write_keeps hI fun hpath => ?_) s ⟨v, hs, hv⟩
    have hname : ∀ e ∈ subsystems, (e.2 = .Memory → e.1 = "memory".toList) ∧
        (e.2 = .Blkio → e.1 = "blkio".toList) ∧ (e.2 = .HugeTLB → e.1 = "hugetlb".toList) := by
      decide
    obtain ⟨hmem, hblk, huge⟩ := hname _ (mem_of_getSubsystem hsub)
    rcases Subsystem.harmless hc with h | ⟨hsub', memory, hr, hzero⟩ |
      ⟨hsub', blkio, hr, hempty⟩ | ⟨hsub', l, hl, hfile, htext⟩
    · obtain ⟨-, hf⟩ := filePath_file_inj h.1 (limitTable_plain hlookup) hpath
      exact h.2 key texts (hf ▸ hlookup)
    · cases hmem hsub'
      exact absurd hzero (hmemory dir' memory hdir' hr)
    · cases hblk hsub'
      exact absurd (hblkio dir' blkio hdir' hr) hempty
    · cases huge hsub'
      rw [hfile] at hpath
      rw [htext]
      exact hapart dir' hdir' l hl file key texts dir hlookup hdir hpath

/-- A manager with the memory controller only. -/
def memoryManager : Manager where
  paths := (∅ : Table Chars Chars).insert "memory".toList "/m".toList
  mounts := ∅
  rels := ∅
  cpath := "/c".toList

/-- The limits of `memoryFiles` and a swappiness of 60. -/
def swappyFiles (p : Chars) : Option Chars :=
  if p = filePath "/m".toList SWAPPINESS then some "60".toList else memoryFiles p

/-- A request for limits alone resets the swappiness. -/
theorem keepsUnspecified_not : ¬ ∀ (m : Manager) (r : CgroupResources), KeepsUnspecified m r := by
  intro h
  have hvisits : Visits memoryManager.paths ["memory".toList] := {
    nodup := List.nodup_singleton _
    mem := fun k => by
      rw [List.mem_singleton, memoryManager, Finmap.mem_insert]
      exact ⟨.inl, fun h => h.resolve_right Finmap.notMem_empty⟩ }
  have hp : (limitTable (limitResources 4096)).lookup SWAPPINESS = some ("memory".toList, []) := by
    decide
  have hdir : memoryManager.paths.lookup "memory".toList = some "/m".toList := by decide
  have hkept := (h memoryManager (limitResources 4096)).unchanged
    (g := memoryKernel "/m".toList) (s := swappyFiles) (v := "60".toList) hvisits hp hdir (by decide)
  exact absurd hkept (by decide +kernel)

end KataAgent
