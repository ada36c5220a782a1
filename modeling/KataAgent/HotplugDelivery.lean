import KataAgent.Hotplug

namespace KataAgent
open Fallible Transition
set_option autoImplicit true

variable {arch : TargetArch} {s t : Hotplug} {c d : CallId} {call other : Call} {a : String}

/-- The event announces a block device that the watcher of the address asks for. -/
def Uevent.reaches (arch : TargetArch) (event : Uevent) (devAddr : String) : Prop :=
  event.announced arch ∧ watcherAccepts arch event.devpath devAddr

def CallPhase.pending : CallPhase → Prop
  | .returned _ => False
  | _ => True

def CallPhase.failed : CallPhase → Prop
  | .gaveUp => True
  | .returned r => ∀ p, r ≠ .ok p
  | .waiting => False

def UeventThread.event : UeventThread → Option Uevent
  | .idle => none
  | .notifying event _ _ => some event

def UeventThread.toSend : UeventThread → List String
  | .idle => []
  | .notifying _ toSend _ => toSend

def UeventThread.toRemove : UeventThread → List String
  | .idle => []
  | .notifying _ _ toRemove => toRemove

/-- A call starts only while no other call is pending at its address. -/
def OnePending (s : Hotplug) : HotplugAction → Prop
  | .lookup _ devAddr _ =>
    ∀ c call, s.calls.lookup c = some call → call.phase.pending → call.devAddr ≠ devAddr
  | _ => True

/-- The call waits for a name that nobody has sent, or has given up. -/
def Call.unanswered (call : Call) : Prop :=
  call.phase.pending ∧ (call.phase = .waiting → call.inbox = [])

instance : DecidablePred CallPhase.pending
  | .waiting => isTrue trivial
  | .gaveUp => isTrue trivial
  | .returned _ => isFalse id

instance : DecidablePred Call.unanswered := fun _ => inferInstanceAs (Decidable (_ ∧ _))

/-- A call waits only where no other call is unanswered. -/
def NoRival (s : Hotplug) : HotplugAction → Prop
  | .lookup _ devAddr found => s.devName found = "" → ∀ c ∈ s.calls.keys,
      ∀ call ∈ s.calls.lookup c, call.unanswered → call.devAddr ≠ devAddr
  | _ => True

instance : Decidable (NoRival s action) := by
  cases action <;> unfold NoRival <;> infer_instance

theorem OnePending.noRival (h : OnePending s action) : NoRival s action := by
  cases action with
  | lookup => exact fun _ c _ call hc hu => h c call hc hu.1
  | _ => trivial

/-- What the notifications owe to one call. -/
structure Call.Attended (arch : TargetArch) (s : Hotplug) (c : CallId) (call : Call) : Prop where
  registered : call.phase = .waiting → call.inbox = [] → s.watcher.lookup call.devAddr = some c
  unsent : call.phase = .waiting → call.inbox = [] → call.devAddr ∈ s.thread.toRemove →
    call.devAddr ∈ s.thread.toSend
  due : call.phase = .waiting → call.inbox = [] → ∀ event, s.thread.event = some event →
    watcherAccepts arch event.devpath call.devAddr → call.devAddr ∈ s.thread.toSend
  unheard : call.phase = .waiting → call.inbox = [] →
    ∀ event ∈ s.processed, ¬ event.reaches arch call.devAddr
  missed : call.phase.failed → ∀ event ∈ call.seen, ¬ event.reaches arch call.devAddr
  named : ∀ name ∈ call.inbox, name ≠ ""

/-- The invariant of the device map, the watchers and the uevent thread. -/
structure Hotplug.Sound (arch : TargetArch) (s : Hotplug) : Prop where
  named : ∀ key name, s.pciDeviceMap.lookup key = some name → name ≠ ""
  recorded : ∀ event ∈ s.processed, event.announced arch → event.devpath ∈ s.pciDeviceMap
  current : ∀ event, s.thread.event = some event →
    event.announced arch ∧ event.devpath ∈ s.pciDeviceMap
  sends : s.thread.toSend.Nodup ∧ s.thread.toSend ⊆ s.thread.toRemove
  owner : ∀ a c, s.watcher.lookup a = some c → ∃ call, s.calls.lookup c = some call ∧
    call.devAddr = a ∧ (a ∉ s.thread.toRemove → call.inbox = [] ∧ call.phase.pending)
  alone : ∀ c d call other, s.calls.lookup c = some call → s.calls.lookup d = some other →
    call.unanswered → other.unanswered → call.devAddr = other.devAddr → c = d
  attended : ∀ c call, s.calls.lookup c = some call → call.Attended arch s c

theorem Hotplug.sound_empty (arch : TargetArch) : Hotplug.empty.Sound arch where
  named _ _ h := by simp [Hotplug.empty] at h
  recorded _ h := by simp [Hotplug.empty] at h
  current _ h := by simp [Hotplug.empty, UeventThread.event] at h
  sends := by simp [Hotplug.empty, UeventThread.toSend]
  owner _ _ h := by simp [Hotplug.empty] at h
  alone _ _ _ _ h := by simp [Hotplug.empty] at h
  attended _ _ h := by simp [Hotplug.empty] at h

/-- A call is not affected by a step that leaves its watcher entry, the thread and the
processed events alone. -/
theorem Call.Attended.congr (h : call.Attended arch s c)
    (hw : t.watcher.lookup call.devAddr = s.watcher.lookup call.devAddr)
    (ht : t.thread = s.thread) (hp : t.processed = s.processed) : call.Attended arch t c where
  registered := by rw [hw]; exact h.registered
  unsent := by rw [ht]; exact h.unsent
  due := by rw [ht]; exact h.due
  unheard := by rw [hp]; exact h.unheard
  missed := h.missed
  named := h.named

theorem Hotplug.lookup_setCall (s : Hotplug) (c : CallId) (call : Call) (d : CallId) :
    (s.setCall c call).calls.lookup d = if d = c then some call else s.calls.lookup d :=
  Table.lookup_insert _ _ _ _

/-- A call that answers or stops waiting, unless a watcher entry still counts on it. -/
theorem Hotplug.Sound.setCall (h : s.Sound arch) (hc : s.calls.lookup c = some call)
    (ha : other.devAddr = call.devAddr) (hp : other.unanswered → call.unanswered)
    (hi : s.watcher.lookup call.devAddr = some c → call.devAddr ∉ s.thread.toRemove →
      other.inbox = [] ∧ other.phase.pending)
    (ho : other.Attended arch s c) : (s.setCall c other).Sound arch where
  named := h.named
  recorded := h.recorded
  current := h.current
  sends := h.sends
  owner := by
    intro a d hd
    obtain ⟨call', hl, ha', hi'⟩ := h.owner a d hd
    by_cases hdc : d = c
    · subst hdc
      cases hc.symm.trans hl
      subst ha'
      exact ⟨other, by rw [Hotplug.lookup_setCall, if_pos rfl], ha, hi hd⟩
    · exact ⟨call', by rwa [Hotplug.lookup_setCall, if_neg hdc], ha', hi'⟩
  alone := by
    have hold (d : CallId) (x : Call) (hx : (s.setCall c other).calls.lookup d = some x)
        (hxp : x.unanswered) : ∃ y, s.calls.lookup d = some y ∧ y.devAddr = x.devAddr ∧
          y.unanswered := by
      rcases Table.of_lookup_insert hx with ⟨rfl, rfl⟩ | ⟨-, hx⟩
      · exact ⟨call, hc, ha.symm, hp hxp⟩
      · exact ⟨x, hx, rfl, hxp⟩
    intro d e x y hx hy hxp hyp hxy
    obtain ⟨x', hx', hxa, hxp'⟩ := hold d x hx hxp
    obtain ⟨y', hy', hya, hyp'⟩ := hold e y hy hyp
    exact h.alone d e x' y' hx' hy' hxp' hyp' (hxa.trans (hxy.trans hya.symm))
  attended := by
    intro d x hx
    rcases Table.of_lookup_insert hx with ⟨rfl, rfl⟩ | ⟨-, hx⟩
    · exact ho.congr rfl rfl rfl
    · exact (h.attended d x hx).congr rfl rfl rfl

/-- The removal of an entry that no call without a message depends on. -/
theorem Hotplug.Sound.eraseWatcher (h : s.Sound arch)
    (hn : ∀ c call, s.calls.lookup c = some call → call.phase = .waiting → call.inbox = [] →
      call.devAddr ≠ a) : { s with watcher := s.watcher.erase a }.Sound arch where
  named := h.named
  recorded := h.recorded
  current := h.current
  sends := h.sends
  owner := by
    intro b c hb
    exact h.owner b c (Table.of_lookup_erase hb).2
  alone := h.alone
  attended := by
    intro c call hc
    have ho := h.attended c call hc
    refine ⟨fun hw hi => ?_, ho.unsent, ho.due, ho.unheard, ho.missed, ho.named⟩
    rw [Table.lookup_erase, if_neg (hn c call hc hw hi)]
    exact ho.registered hw hi

theorem Hotplug.Sound.receive (h : s.Sound arch) (hs : s.receive c = some t) : t.Sound arch := by
  rw [Hotplug.receive] at hs
  split at hs
  · rename_i devAddr name inbox seen hc
    cases hs
    refine h.setCall hc ?_ (fun hu => hu.1.elim) ?_ ?_
    · rfl
    · intro hw hr
      obtain ⟨call, hl, _, hi⟩ := h.owner _ _ hw
      cases hc.symm.trans hl
      exact absurd (hi hr).1 (List.cons_ne_nil _ _)
    · have hcall := h.attended _ _ hc
      refine ⟨nofun, nofun, nofun, nofun, fun hf => absurd rfl (hf _), ?_⟩
      exact fun n hn => hcall.named n (List.mem_cons_of_mem _ hn)
  · cases hs

theorem Hotplug.Sound.timeout (h : s.Sound arch) (hs : s.timeout c = some t) : t.Sound arch := by
  rw [Hotplug.timeout] at hs
  split at hs
  · rename_i devAddr seen hc
    cases hs
    have hcall := h.attended _ _ hc
    refine h.setCall hc ?_ (fun _ => ⟨trivial, fun _ => rfl⟩) (fun _ _ => ⟨rfl, trivial⟩) ?_
    · rfl
    · exact ⟨nofun, nofun, nofun, nofun, fun _ => hcall.unheard rfl rfl, hcall.named⟩
  · cases hs

theorem Hotplug.Sound.giveUp (h : s.Sound arch) (hs : s.giveUp c = some t) : t.Sound arch := by
  rw [Hotplug.giveUp] at hs
  split at hs
  · rename_i devAddr inbox seen hc
    split at hs
    · cases hs
      have hcall := h.attended _ _ hc
      have he : { s with watcher := s.watcher.erase devAddr }.Sound arch := by
        apply h.eraseWatcher
        intro d call hd hw hi ha
        have hdc := h.alone d c call _ hd hc ⟨by rw [hw]; trivial, fun _ => hi⟩ ⟨trivial, nofun⟩ ha
        subst hdc
        cases hc.symm.trans hd
        cases hw
      refine he.setCall hc ?_ (fun hu => hu.1.elim) ?_ ?_
      · rfl
      · intro hw
        rw [Table.lookup_erase, if_pos rfl] at hw
        cases hw
      · exact ⟨nofun, nofun, nofun, nofun, fun _ => hcall.missed trivial, hcall.named⟩
    · cases hs
  · cases hs

theorem Hotplug.Sound.remove (h : s.Sound arch) (hs : s.remove = some t) : t.Sound arch := by
  rw [Hotplug.remove] at hs
  split at hs
  · rename_i event devAddr toRemove ht
    cases hs
    have hunsent (c : CallId) (call : Call) (hc : s.calls.lookup c = some call)
        (hw : call.phase = .waiting) (hi : call.inbox = []) :
        call.devAddr ∉ devAddr :: toRemove := by
      intro hm
      have hsend := (h.attended c call hc).unsent hw hi (by rw [ht]; exact hm)
      rw [ht] at hsend
      cases hsend
    have he : { s with watcher := s.watcher.erase devAddr }.Sound arch := by
      apply h.eraseWatcher
      intro c call hc hw hi ha
      exact hunsent c call hc hw hi (by rw [ha]; exact List.mem_cons_self)
    refine ⟨he.named, he.recorded, ?_, ?_, ?_, he.alone, ?_⟩
    · have hcur := h.current
      rw [ht] at hcur
      exact hcur
    · exact ⟨List.nodup_nil, List.nil_subset _⟩
    · intro b c hb
      obtain ⟨call, hl, ha, hi⟩ := he.owner b c hb
      refine ⟨call, hl, ha, fun hn => hi ?_⟩
      simp only [ht]
      intro hm
      rcases List.mem_cons.1 hm with rfl | hm
      · rw [Table.lookup_erase, if_pos rfl] at hb
        cases hb
      · exact hn hm
    · intro c call hc
      have ho := he.attended c call hc
      refine ⟨ho.registered, fun hw hi hm => ?_, fun hw hi => ?_, ho.unheard, ho.missed, ho.named⟩
      · exact absurd (List.mem_cons_of_mem _ hm) (hunsent c call hc hw hi)
      · have hdue := ho.due hw hi
        simp only [ht] at hdue
        exact hdue
  · cases hs

theorem Hotplug.Sound.release (h : s.Sound arch) (hs : s.release = some t) : t.Sound arch := by
  rw [Hotplug.release] at hs
  split at hs
  · rename_i event ht
    cases hs
    have hcur := h.current event (by rw [ht]; rfl)
    refine ⟨h.named, ?_, nofun, ⟨List.nodup_nil, List.nil_subset _⟩, ?_, h.alone, ?_⟩
    · intro e he ha
      rcases List.mem_append.1 he with he | he
      · exact h.recorded e he ha
      · rw [List.mem_singleton.1 he]
        exact hcur.2
    · intro a c hc
      have ho := h.owner a c hc
      rw [ht] at ho
      exact ho
    · intro c call hc
      have ho := h.attended c call hc
      refine ⟨ho.registered, nofun, nofun, fun hw hi e he hr => ?_, ho.missed, ho.named⟩
      rcases List.mem_append.1 he with he | he
      · exact ho.unheard hw hi e he hr
      · rw [List.mem_singleton.1 he] at hr
        have hdue := ho.due hw hi event (by rw [ht]; rfl) hr.2
        rw [ht] at hdue
        cases hdue
  · cases hs

@[simp] theorem Call.notify_devAddr (call : Call) (name : String) :
    (call.notify name).devAddr = call.devAddr := by
  cases h : call.phase <;> simp [Call.notify, h]

@[simp] theorem Call.notify_phase (call : Call) (name : String) :
    (call.notify name).phase = call.phase := by
  cases h : call.phase <;> simp [Call.notify, h]

theorem Call.unanswered.of_notify (h : (call.notify name).unanswered) : call.unanswered := by
  obtain ⟨hp, hi⟩ := h
  rw [Call.notify_phase] at hp hi
  refine ⟨hp, fun hw => ?_⟩
  have hinbox := hi hw
  simp [Call.notify, hw] at hinbox

theorem Call.Attended.notify (h : call.Attended arch s c) (hn : name ≠ "") :
    (call.notify name).Attended arch t c := by
  have hinbox (hw : (call.notify name).phase = .waiting) : (call.notify name).inbox ≠ [] := by
    rw [Call.notify_phase] at hw
    simp [Call.notify, hw]
  refine ⟨fun hw hi => absurd hi (hinbox hw), fun hw hi => absurd hi (hinbox hw),
    fun hw hi => absurd hi (hinbox hw), fun hw hi => absurd hi (hinbox hw), ?_, ?_⟩
  · have hseen : (call.notify name).seen = call.seen := by
      cases hp : call.phase <;> simp [Call.notify, hp]
    rw [Call.notify_phase, Call.notify_devAddr, hseen]
    exact h.missed
  · intro n hm
    cases hp : call.phase with
    | returned r =>
      simp only [Call.notify, hp] at hm
      exact h.named n hm
    | _ =>
      simp only [Call.notify, hp, List.mem_append, List.mem_singleton] at hm
      rcases hm with hm | rfl
      · exact h.named n hm
      · exact hn

theorem Hotplug.Sound.send (h : s.Sound arch) (hs : s.send = some t) : t.Sound arch := by
  simp only [Hotplug.send] at hs
  split at hs
  · rename_i event devAddr toSend toRemove ht
    split at hs
    · rename_i c hw
      cases hs
      have hcur := h.current event (by rw [ht]; rfl)
      have hsends := h.sends
      rw [ht] at hsends
      have hnew (d : CallId) : (s.calls.update c fun call => call.notify event.devname).lookup d =
          if d = c then (s.calls.lookup c).map fun call => call.notify event.devname
          else s.calls.lookup d := Table.lookup_update _ _ _ _
      have hold (d : CallId) (x : Call) (hx : (s.calls.update c fun call =>
          call.notify event.devname).lookup d = some x) : ∃ y, s.calls.lookup d = some y ∧
            y.devAddr = x.devAddr ∧ (x.unanswered → y.unanswered) ∧
            (x = y ∧ d ≠ c ∨ x = y.notify event.devname) := by
        rcases Table.of_lookup_update hx with ⟨hdc, y, hy, rfl⟩ | ⟨hdc, hx⟩
        · exact ⟨y, by rw [hdc, hy], by simp, .of_notify, .inr rfl⟩
        · exact ⟨x, hx, rfl, id, .inl ⟨rfl, hdc⟩⟩
      refine ⟨h.named, h.recorded, ?_, ?_, ?_, ?_, ?_⟩
      · intro e he
        cases he
        exact hcur
      · exact ⟨(List.nodup_cons.1 hsends.1).2, fun x hx => hsends.2 (List.mem_cons_of_mem _ hx)⟩
      · intro a d hd
        obtain ⟨y, hy, hya, hi⟩ := h.owner a d hd
        rw [ht] at hi
        by_cases hdc : d = c
        · subst hdc
          obtain ⟨z, hz, hza, _⟩ := h.owner devAddr d hw
          cases hy.symm.trans hz
          refine ⟨y.notify event.devname, by rw [hnew, if_pos rfl, hy]; rfl, by simpa using hya, ?_⟩
          intro hn
          have hmem := hsends.2 List.mem_cons_self
          rw [← hza, hya] at hmem
          exact absurd hmem hn
        · exact ⟨y, by rw [hnew, if_neg hdc, hy], hya, hi⟩
      · intro d e x y hx hy hxp hyp hxy
        obtain ⟨x', hx', hxa, hxp', _⟩ := hold d x hx
        obtain ⟨y', hy', hya, hyp', _⟩ := hold e y hy
        exact h.alone d e x' y' hx' hy' (hxp' hxp) (hyp' hyp) (hxa.trans (hxy.trans hya.symm))
      · intro d x hx
        obtain ⟨y, hy, _, _, ⟨rfl, hdc⟩ | rfl⟩ := hold d x hx
        · have ho := h.attended d x hy
          have hne (hxw : x.phase = .waiting) (hi : x.inbox = []) : x.devAddr ≠ devAddr := by
            intro ha
            have hr := ho.registered hxw hi
            rw [ha, hw] at hr
            exact hdc (Option.some.inj hr).symm
          refine ⟨ho.registered, fun hxw hi hm => ?_, fun hxw hi e he ha => ?_, ho.unheard,
            ho.missed, ho.named⟩
          · have hm := ho.unsent hxw hi (by rw [ht]; exact hm)
            rw [ht] at hm
            exact (List.mem_cons.1 hm).resolve_left (hne hxw hi)
          · have hm := ho.due hxw hi e (by rw [ht]; exact he) ha
            rw [ht] at hm
            exact (List.mem_cons.1 hm).resolve_left (hne hxw hi)
        · exact (h.attended d y hy).notify hcur.1.1
    · cases hs
  · cases hs

theorem Hotplug.Sound.begin (h : s.Sound arch) (hs : s.begin arch event order = some t) :
    t.Sound arch := by
  simp only [Hotplug.begin] at hs
  split at hs
  · rename_i ht
    split at hs
    · rename_i hannounced
      split at hs
      · rename_i horder
        cases hs
        refine ⟨?_, ?_, ?_, ?_, ?_, h.alone, ?_⟩
        · intro key name hk
          rcases Table.of_lookup_insert hk with ⟨rfl, rfl⟩ | ⟨-, hk⟩
          · exact hannounced.1
          · exact h.named key name hk
        · exact fun e he ha => Finmap.mem_insert.2 (.inr (h.recorded e he ha))
        · intro e he
          cases he
          exact ⟨hannounced, Finmap.mem_insert.2 (.inl rfl)⟩
        · exact ⟨horder.1, fun _ hm => hm⟩
        · intro a c hc
          obtain ⟨call, hl, ha, hi⟩ := h.owner a c hc
          rw [ht] at hi
          exact ⟨call, hl, ha, fun _ => hi (List.not_mem_nil)⟩
        · intro c call hc
          have ho := h.attended c call hc
          refine ⟨ho.registered, fun _ _ hm => hm, fun hw hi e he ha => ?_, ho.unheard, ho.missed,
            ho.named⟩
          cases he
          have hk : call.devAddr ∈ s.interested arch event :=
            Finset.mem_filter.2 ⟨Table.mem_keys_iff.2 ⟨c, ho.registered hw hi⟩, ha⟩
          rw [← horder.2] at hk
          exact List.mem_toFinset.1 hk
      · cases hs
    · rename_i hannounced
      cases hs
      refine ⟨h.named, ?_, h.current, h.sends, h.owner, h.alone, ?_⟩
      · intro e he ha
        rcases List.mem_append.1 he with he | he
        · exact h.recorded e he ha
        · rw [List.mem_singleton.1 he] at ha
          exact absurd ha hannounced
      · intro c call hc
        have ho := h.attended c call hc
        refine ⟨ho.registered, ho.unsent, ho.due, fun hw hi e he hr => ?_, ho.missed, ho.named⟩
        rcases List.mem_append.1 he with he | he
        · exact ho.unheard hw hi e he hr
        · rw [List.mem_singleton.1 he] at hr
          exact hannounced hr.1
  · cases hs

/-- A call that starts, with or without an entry of its own. -/
theorem Hotplug.Sound.addCall (h : s.Sound arch) (hc : c ∉ s.calls)
    (hw : ∀ a d, w.lookup a = some d → s.watcher.lookup a = some d ∨
      a = call.devAddr ∧ d = c ∧ call.inbox = [] ∧ call.phase.pending)
    (hkeep : ∀ d x, s.calls.lookup d = some x → x.unanswered →
      w.lookup x.devAddr = s.watcher.lookup x.devAddr)
    (hone : call.unanswered → ∀ d x, s.calls.lookup d = some x → x.unanswered →
      x.devAddr ≠ call.devAddr)
    (ho : call.Attended arch { s with watcher := w } c) :
    (Hotplug.setCall { s with watcher := w } c call).Sound arch := by
  have hfresh (d : CallId) (x : Call) (hx : s.calls.lookup d = some x) : d ≠ c := by
    rintro rfl
    rw [Table.notMem_iff.1 hc] at hx
    cases hx
  refine ⟨h.named, h.recorded, h.current, h.sends, ?_, ?_, ?_⟩
  · intro a d hd
    rcases hw a d hd with hd | ⟨rfl, rfl, hi⟩
    · obtain ⟨x, hx, hxa⟩ := h.owner a d hd
      exact ⟨x, by rwa [Hotplug.lookup_setCall, if_neg (hfresh d x hx)], hxa⟩
    · exact ⟨call, by rw [Hotplug.lookup_setCall, if_pos rfl], rfl, fun _ => hi⟩
  · intro d e x y hx hy hxp hyp hxy
    rcases Table.of_lookup_insert hx with ⟨hd, rfl⟩ | ⟨-, hx'⟩ <;>
      rcases Table.of_lookup_insert hy with ⟨he, rfl⟩ | ⟨-, hy'⟩
    · exact hd.trans he.symm
    · exact absurd hxy.symm (hone hxp e y hy' hyp)
    · exact absurd hxy (hone hyp d x hx' hxp)
    · exact h.alone d e x y hx' hy' hxp hyp hxy
  · intro d x hx
    rcases Table.of_lookup_insert hx with ⟨rfl, rfl⟩ | ⟨-, hx⟩
    · exact ho.congr rfl rfl rfl
    · have hox := h.attended d x hx
      refine ⟨fun hxw hi => ?_, hox.unsent, hox.due, hox.unheard, hox.missed, hox.named⟩
      have hu : x.unanswered := ⟨by rw [hxw]; trivial, fun _ => hi⟩
      exact (hkeep d x hx hu).trans (hox.registered hxw hi)

/-- Nothing in the map answers for the address, so no processed event announced it. -/
theorem Hotplug.Sound.unheard_of_finds (h : s.Sound arch) (hf : s.finds devAddr found)
    (hn : s.devName found = "") : ∀ event ∈ s.processed, ¬ event.reaches arch devAddr := by
  intro event he hr
  have hm := h.recorded event he hr.1
  cases found with
  | none => exact hf _ (Finmap.mem_keys.2 hm) hr.2.contains
  | some key =>
    obtain ⟨name, hl⟩ := Table.mem_keys_iff.1 hf.1
    have hname : s.devName (some key) = name := by simp [Hotplug.devName, hl]
    exact h.named key name hl (hname.symm.trans hn)

theorem Hotplug.Sound.lookup (h : s.Sound arch) (hc : NoRival s (.lookup c devAddr found))
    (hs : s.lookupOrRegister c devAddr found = some t) : t.Sound arch := by
  simp only [Hotplug.lookupOrRegister] at hs
  split at hs
  · rename_i hg
    obtain ⟨ht, hcalls, hf⟩ := hg
    split at hs
    · rename_i hn
      have hone (d : CallId) (x : Call) (hx : s.calls.lookup d = some x) (hu : x.unanswered) :
          x.devAddr ≠ devAddr := hc hn d (Table.mem_keys_iff.2 ⟨x, hx⟩) x hx hu
      cases hs
      apply h.addCall hcalls
      · intro b d hd
        rcases Table.of_lookup_insert hd with ⟨hb, rfl⟩ | ⟨-, hd⟩
        · exact .inr ⟨hb, rfl, rfl, trivial⟩
        · exact .inl hd
      · intro d x hx hp
        rw [Table.lookup_insert, if_neg (hone d x hx hp)]
      · exact fun _ => hone
      · refine ⟨fun _ _ => ?_, fun _ _ hm => ?_, fun _ _ e he => ?_, fun _ _ => ?_, nofun, nofun⟩
        · rw [Table.lookup_insert, if_pos rfl]
        · rw [ht] at hm
          cases hm
        · rw [ht] at he
          cases he
        · exact h.unheard_of_finds hf hn
    · cases hs
      apply h.addCall hcalls
      · exact fun _ _ hd => .inl hd
      · exact fun _ _ _ _ => rfl
      · exact fun hu => hu.1.elim
      · exact ⟨nofun, nofun, nofun, nofun, fun hr => absurd rfl (hr _), nofun⟩
  · cases hs

theorem Hotplug.Sound.step (h : s.Sound arch) (hc : NoRival s action)
    (hs : (hotplug arch).step s action = some t) : t.Sound arch := by
  cases action with
  | lookup c devAddr found => exact h.lookup hc hs
  | receive c => exact h.receive hs
  | timeout c => exact h.timeout hs
  | giveUp c => exact h.giveUp hs
  | begin event order => exact h.begin hs
  | send => exact h.send hs
  | remove => exact h.remove hs
  | release => exact h.release hs

theorem Hotplug.sound_of_reach (h : (hotplug arch).Reach NoRival s) : s.Sound arch := by
  apply h.invariant
  · rintro s rfl
    exact Hotplug.sound_empty arch
  · exact fun _ _ _ hs hc ht => hs.step hc ht

/-- The call has come back with the node of some device name. -/
def Hotplug.Answered (s : Hotplug) (c : CallId) : Prop :=
  ∃ call name, s.calls.lookup c = some call ∧ name ≠ "" ∧
    call.phase = .returned (.ok (deviceNode name))

/-- No processed event is lost on a call, and no entry outlives its call. -/
structure Hotplug.Delivers (arch : TargetArch) (s : Hotplug) : Prop where
  earlier : ∀ c devAddr found t, (∃ event ∈ s.processed, event.reaches arch devAddr) →
    s.lookupOrRegister c devAddr found = some t → t.Answered c
  meanwhile : ∀ c call, s.calls.lookup c = some call → call.phase = .waiting →
    (∃ event ∈ s.processed, event.reaches arch call.devAddr) →
    s.timeout c = none ∧ ∃ t, s.receive c = some t ∧ t.Answered c
  failed : ∀ c call, s.calls.lookup c = some call → call.phase.failed →
    ∀ event ∈ call.seen, ¬ event.reaches arch call.devAddr
  unregistered : s.thread = .idle → ∀ devAddr c, s.watcher.lookup devAddr = some c →
    ∃ call, s.calls.lookup c = some call ∧ call.devAddr = devAddr ∧ call.phase.pending

theorem Hotplug.Sound.delivers (h : s.Sound arch) : s.Delivers arch where
  earlier := by
    rintro c devAddr found t ⟨event, he, hr⟩ hs
    simp only [Hotplug.lookupOrRegister] at hs
    split at hs
    · rename_i hg
      split at hs
      · rename_i hn
        exact absurd hr (h.unheard_of_finds hg.2.2 hn event he)
      · rename_i hn
        cases hs
        have hl := s.lookup_setCall c
          ⟨devAddr, [], .returned (.ok (deviceNode (s.devName found))), []⟩ c
        exact ⟨_, s.devName found, hl.trans (if_pos rfl), hn, rfl⟩
    · cases hs
  meanwhile := by
    rintro c ⟨devAddr, inbox, phase, seen⟩ hc hw ⟨event, he, hr⟩
    cases hw
    have ho := h.attended c _ hc
    cases inbox with
    | nil => exact absurd hr (ho.unheard rfl rfl event he)
    | cons name inbox =>
      have ht : s.timeout c = none := by simp only [Hotplug.timeout, hc]
      have hs : s.receive c = some (s.setCall c
          ⟨devAddr, inbox, .returned (.ok (deviceNode name)), seen⟩) := by
        simp only [Hotplug.receive, hc]
      have hl := s.lookup_setCall c ⟨devAddr, inbox, .returned (.ok (deviceNode name)), seen⟩ c
      have hn := ho.named name List.mem_cons_self
      exact ⟨ht, _, hs, _, name, hl.trans (if_pos rfl), hn, rfl⟩
  failed := fun c call hc => (h.attended c call hc).missed
  unregistered := by
    intro ht devAddr c hc
    obtain ⟨call, hl, ha, hi⟩ := h.owner devAddr c hc
    rw [ht] at hi
    exact ⟨call, hl, ha, (hi List.not_mem_nil).2⟩

/-- A call gets every event that announces its device below the root bus, and while the
watcher mutex is free the watchers are those of pending calls. -/
theorem getDeviceName_delivers (arch : TargetArch) (s : Hotplug)
    (h : (hotplug arch).Reach OnePending s) : s.Delivers arch :=
  (Hotplug.sound_of_reach (h.mono fun _ _ => OnePending.noRival)).delivers

def blockEvent (devpath devname : String) : Uevent :=
  ⟨"add", devpath, devname, "block", "", ""⟩

/-- The event comes between the registration and the timeout of a SCSI call. -/
def waitForScsi (event : Uevent) (order : List String) : List HotplugAction :=
  [.lookup 0 "0:0:0:0/block" none, .begin event order]

theorem reach_waitForScsi (event : Uevent) (order : List String) (rest : List HotplugAction)
    (hrest : ∀ action ∈ rest, ∀ s, OnePending s action)
    (hr : (hotplug .x86).run .empty (waitForScsi event order ++ rest) = some t) :
    (hotplug .x86).Reach OnePending t := by
  have hall (as : List HotplugAction) (ha : ∀ action ∈ as, ∀ s, OnePending s action)
      (s : Hotplug) : (hotplug .x86).Admits OnePending s as := by
    induction as generalizing s with
    | nil => trivial
    | cons action as ih =>
      exact ⟨ha _ List.mem_cons_self s,
        fun t _ => ih (fun b hb => ha b (List.mem_cons_of_mem _ hb)) t⟩
  have hfirst : OnePending .empty (.lookup 0 "0:0:0:0/block" none) := by
    intro c call hc
    simp [Hotplug.empty] at hc
  have hadm : (hotplug .x86).Admits OnePending .empty (waitForScsi event order ++ rest) :=
    ⟨hfirst, fun u _ => ⟨trivial, fun v _ => hall _ hrest v⟩⟩
  exact System.Reach.extend (.init rfl) hadm hr

theorem getDeviceName_delivers_scsi : ∃ s, (hotplug .x86).run .empty
    (waitForScsi (blockEvent "/devices/pci0000:00/0000:00:04.0/host0/0:0:0:0/block/sda" "sda")
      ["0:0:0:0/block"] ++ [.send, .remove, .release]) = some s ∧ s.Delivers .x86 := by
  have hr : ((hotplug .x86).run .empty
      (waitForScsi (blockEvent "/devices/pci0000:00/0000:00:04.0/host0/0:0:0:0/block/sda" "sda")
        ["0:0:0:0/block"] ++ [.send, .remove, .release])).isSome := by decide
  obtain ⟨s, hs⟩ := Option.isSome_iff_exists.1 hr
  exact ⟨s, hs, getDeviceName_delivers .x86 s
    (reach_waitForScsi _ _ _ (by simp [OnePending]) hs)⟩

/-- An accepted path outside the root bus is not announced at all, and the sender stays in
the map for a moment after the call that it woke is back. -/
theorem getDeviceName_misses :
    ¬ (∀ s, (hotplug .x86).Reach OnePending s → ∀ c call, s.calls.lookup c = some call →
      call.phase.failed → ∀ event ∈ call.seen, event.devname ≠ "" → event.subsystem = "block" →
        ¬ watcherAccepts .x86 event.devpath call.devAddr) ∧
    ¬ (∀ s, (hotplug .x86).Reach OnePending s → ∀ c call, s.calls.lookup c = some call →
      ¬ call.phase.pending → s.watcher.lookup call.devAddr ≠ some c) := by
  constructor
  · intro h
    let event := blockEvent "/devices/platform/host0/target0:0:0/0:0:0:0/block/sda" "sda"
    have hr : (hotplug .x86).run .empty (waitForScsi event [] ++ [.timeout 0, .giveUp 0]) =
        some { Hotplug.empty with
          calls := Finmap.insert 0 ⟨"0:0:0:0/block", [],
            .returned (.err (timeoutError "0:0:0:0/block")), [event]⟩ ∅
          processed := [event] } := by decide
    have hs := reach_waitForScsi event [] [.timeout 0, .giveUp 0] (by simp [OnePending]) hr
    exact h _ hs 0 _ (Finmap.lookup_insert _) nofun event List.mem_cons_self (by decide)
      (by decide) (by decide)
  · intro h
    let event := blockEvent "/devices/pci0000:00/0000:00:04.0/host0/0:0:0:0/block/sda" "sda"
    have hr : (hotplug .x86).run .empty
        (waitForScsi event ["0:0:0:0/block"] ++ [.send, .receive 0]) =
        some { Hotplug.empty with
          pciDeviceMap := Finmap.insert event.devpath "sda" ∅
          watcher := Finmap.insert "0:0:0:0/block" 0 ∅
          calls := Finmap.insert 0 ⟨"0:0:0:0/block", [], .returned (.ok "/dev/sda"), []⟩ ∅
          thread := .notifying event [] ["0:0:0:0/block"] } := by decide
    have hs := reach_waitForScsi event _ [.send, .receive 0] (by simp [OnePending]) hr
    exact h _ hs 0 _ (Finmap.lookup_insert _) id (Finmap.lookup_insert _)

end KataAgent
