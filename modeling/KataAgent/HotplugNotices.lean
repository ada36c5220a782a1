import KataAgent.HotplugDelivery

namespace KataAgent
open Fallible Transition
set_option autoImplicit true

/-- The events in the order of their processing, with the one that is being processed. -/
def Hotplug.history (s : Hotplug) : List Uevent := s.processed ++ s.thread.event.toList

theorem Hotplug.history_idle {s : Hotplug} (ht : s.thread = .idle) : s.history = s.processed := by
  rw [Hotplug.history]
  rw [ht]
  exact List.append_nil _

theorem Hotplug.history_notifying {s : Hotplug} (ht : s.thread = .notifying event toSend toRemove) :
    s.history = s.processed ++ [event] := by
  rw [Hotplug.history]
  rw [ht]
  rfl

/-- What each action can do, and in which states. -/
inductive Hotplug.Effect (arch : TargetArch) (s : Hotplug) : HotplugAction → Hotplug → Prop where
  | answer (ht : s.thread = .idle) (hc : c ∉ s.calls) (hk : s.pciDeviceMap.lookup key = some name)
      (hm : contains key devAddr) (hn : name ≠ "") : Effect arch s (.lookup c devAddr (some key))
        (s.setCall c ⟨devAddr, [], .returned (.ok (deviceNode name)), []⟩)
  | register (ht : s.thread = .idle) (hc : c ∉ s.calls) (hf : s.finds devAddr found)
      (hn : s.devName found = "") : Effect arch s (.lookup c devAddr found)
        (Hotplug.setCall { s with watcher := s.watcher.insert devAddr c } c
          ⟨devAddr, [], .waiting, []⟩)
  | receive (hc : s.calls.lookup c = some ⟨devAddr, name :: inbox, .waiting, seen⟩) :
      Effect arch s (.receive c)
        (s.setCall c ⟨devAddr, inbox, .returned (.ok (deviceNode name)), seen⟩)
  | timeout (hc : s.calls.lookup c = some ⟨devAddr, [], .waiting, seen⟩) :
      Effect arch s (.timeout c) (s.setCall c ⟨devAddr, [], .gaveUp, s.processed⟩)
  | giveUp (hc : s.calls.lookup c = some ⟨devAddr, inbox, .gaveUp, seen⟩) (ht : s.thread = .idle) :
      Effect arch s (.giveUp c) (Hotplug.setCall { s with watcher := s.watcher.erase devAddr } c
        ⟨devAddr, inbox, .returned (.err (timeoutError devAddr)), seen⟩)
  | announce (ht : s.thread = .idle) (ha : event.announced arch) (hn : order.Nodup)
      (ho : order.toFinset = s.interested arch event) : Effect arch s (.begin event order) { s with
        pciDeviceMap := s.pciDeviceMap.insert event.devpath event.devname
        thread := .notifying event order order }
  | skip (ht : s.thread = .idle) (ha : ¬ event.announced arch) :
      Effect arch s (.begin event order) { s with processed := s.processed ++ [event] }
  | send (ht : s.thread = .notifying event (devAddr :: toSend) toRemove)
      (hw : s.watcher.lookup devAddr = some c) : Effect arch s .send { s with
        calls := s.calls.update c fun call => call.notify event.devname
        thread := .notifying event toSend toRemove }
  | remove (ht : s.thread = .notifying event [] (devAddr :: toRemove)) :
      Effect arch s .remove { s with
        watcher := s.watcher.erase devAddr
        thread := .notifying event [] toRemove }
  | release (ht : s.thread = .notifying event [] []) : Effect arch s .release { s with
        thread := .idle
        processed := s.processed ++ [event] }

variable {arch : TargetArch} {s t : Hotplug} {c d : CallId} {call : Call}

theorem Hotplug.lookup_effect (h : s.lookupOrRegister c devAddr found = some t) :
    s.Effect arch (.lookup c devAddr found) t := by
  simp only [Hotplug.lookupOrRegister] at h
  split at h
  · rename_i hg
    obtain ⟨ht, hc, hf⟩ := hg
    split at h
    · rename_i hn
      cases h
      exact .register ht hc hf hn
    · rename_i hn
      cases h
      cases found with
      | none => exact absurd rfl hn
      | some key =>
        obtain ⟨name, hk⟩ := Table.mem_keys_iff.1 hf.1
        have hname : s.devName (some key) = name := by simp [Hotplug.devName, hk]
        rw [hname] at hn ⊢
        exact .answer ht hc hk hf.2 hn
  · cases h

theorem Hotplug.begin_effect (h : s.begin arch event order = some t) :
    s.Effect arch (.begin event order) t := by
  simp only [Hotplug.begin] at h
  split at h
  · rename_i ht
    split at h
    · rename_i ha
      split at h
      · rename_i ho
        cases h
        exact .announce ht ha ho.1 ho.2
      · cases h
    · rename_i ha
      cases h
      exact .skip ht ha
  · cases h

theorem Hotplug.send_effect (h : s.send = some t) : s.Effect arch .send t := by
  simp only [Hotplug.send] at h
  split at h
  · rename_i ht
    split at h
    · rename_i hw
      cases h
      exact .send ht hw
    · cases h
  · cases h

theorem Hotplug.step_effect (h : (hotplug arch).step s a = some t) : s.Effect arch a t := by
  cases a with
  | lookup c devAddr found => exact Hotplug.lookup_effect h
  | receive c =>
    simp only [hotplug, Hotplug.step, Hotplug.receive] at h
    split at h
    · rename_i hc
      cases h
      exact .receive hc
    · cases h
  | timeout c =>
    simp only [hotplug, Hotplug.step, Hotplug.timeout] at h
    split at h
    · rename_i hc
      cases h
      exact .timeout hc
    · cases h
  | giveUp c =>
    simp only [hotplug, Hotplug.step, Hotplug.giveUp] at h
    split at h
    · rename_i hc
      split at h
      · rename_i ht
        cases h
        exact .giveUp hc ht
      · cases h
    · cases h
  | begin event order => exact Hotplug.begin_effect h
  | send => exact Hotplug.send_effect h
  | remove =>
    simp only [hotplug, Hotplug.step, Hotplug.remove] at h
    split at h
    · rename_i ht
      cases h
      exact .remove ht
    · cases h
  | release =>
    simp only [hotplug, Hotplug.step, Hotplug.release] at h
    split at h
    · rename_i ht
      cases h
      exact .release ht
    · cases h

/-- What is waiting in a channel was announced for the call that holds the receiver. -/
structure Hotplug.Told (arch : TargetArch) (s : Hotplug) : Prop where
  owner : ∀ {a c}, s.watcher.lookup a = some c →
    ∃ call, s.calls.lookup c = some call ∧ call.devAddr = a
  sending : ∀ {event toSend toRemove}, s.thread = .notifying event toSend toRemove →
    event.announced arch ∧ ∀ a ∈ toSend, watcherAccepts arch event.devpath a
  told : ∀ {c call name}, s.calls.lookup c = some call → name ∈ call.inbox →
    ∃ event ∈ s.history, event.reaches arch call.devAddr ∧ event.devname = name

theorem Call.mem_notify {name n : String} (h : n ∈ (call.notify name).inbox) :
    n ∈ call.inbox ∨ n = name := by
  cases hp : call.phase <;> simp [Call.notify, hp] at h
  · exact h
  · exact h
  · exact .inl h

theorem Hotplug.Told.setCall (h : s.Told arch) (hl : ∀ x, s.calls.lookup c = some x →
      x.devAddr = call.devAddr) (hi : ∀ name ∈ call.inbox,
      ∃ event ∈ s.history, event.reaches arch call.devAddr ∧ event.devname = name) :
    (s.setCall c call).Told arch where
  owner := by
    intro a d hd
    obtain ⟨x, hx, ha⟩ := h.owner hd
    rw [Hotplug.lookup_setCall]
    split
    · rename_i hdc
      exact ⟨call, rfl, (hl x (hdc ▸ hx)).symm.trans ha⟩
    · exact ⟨x, hx, ha⟩
  sending := h.sending
  told := by
    intro d x name hx hn
    rcases Table.of_lookup_insert hx with ⟨-, rfl⟩ | ⟨-, hx⟩
    · exact hi name hn
    · exact h.told hx hn

theorem Hotplug.Told.eraseWatcher (h : s.Told arch) (a : String) :
    Hotplug.Told arch { s with watcher := s.watcher.erase a } where
  owner := by
    intro b c hc
    exact h.owner (Table.of_lookup_erase hc).2
  sending := h.sending
  told := h.told

theorem Hotplug.Told.send {event : Uevent} {devAddr : String} {toSend toRemove : List String}
    (h : s.Told arch) (ht : s.thread = .notifying event (devAddr :: toSend) toRemove)
    (hw : s.watcher.lookup devAddr = some c) : Hotplug.Told arch { s with
      calls := s.calls.update c fun call => call.notify event.devname
      thread := .notifying event toSend toRemove } := by
  obtain ⟨ha, hs⟩ := h.sending ht
  have hhist : Hotplug.history { s with
      calls := s.calls.update c fun call => call.notify event.devname
      thread := .notifying event toSend toRemove } = s.history :=
    (Hotplug.history_notifying rfl).trans (Hotplug.history_notifying ht).symm
  refine ⟨fun {b d} hd => ?_, ?_, fun {d x name} hd hn => ?_⟩
  · obtain ⟨x, hx, hxa⟩ := h.owner hd
    dsimp only
    rw [Table.lookup_update]
    split
    · rename_i hdc
      rw [← hdc, hx]
      exact ⟨_, rfl, by rw [Call.notify_devAddr, hxa]⟩
    · exact ⟨x, hx, hxa⟩
  · rintro _ _ _ ⟨⟩
    exact ⟨ha, fun b hb => hs b (List.mem_cons_of_mem _ hb)⟩
  · rw [hhist]
    rcases Table.of_lookup_update hd with ⟨-, y, hy, rfl⟩ | ⟨-, hd⟩
    · rw [Call.notify_devAddr]
      rcases Call.mem_notify hn with hn | rfl
      · exact h.told hy hn
      · obtain ⟨z, hz, hza⟩ := h.owner hw
        cases hy.symm.trans hz
        refine ⟨event, ?_, ⟨ha, ?_⟩, rfl⟩
        · rw [Hotplug.history_notifying ht]
          exact List.mem_append_right _ List.mem_cons_self
        · rw [hza]
          exact hs devAddr List.mem_cons_self
    · exact h.told hd hn

theorem Hotplug.Told.step (h : s.Told arch) (hst : (hotplug arch).step s a = some t) :
    t.Told arch := by
  have hfresh : ∀ {c call}, c ∉ s.calls → ∀ x, s.calls.lookup c = some x →
      x.devAddr = Call.devAddr call := by
    intro c call hc x hx
    cases (Table.notMem_iff.1 hc).symm.trans hx
  have hsame : ∀ {c y call}, s.calls.lookup c = some y → y.devAddr = Call.devAddr call →
      ∀ x, s.calls.lookup c = some x → x.devAddr = call.devAddr := by
    intro c y call hy ha x hx
    cases hy.symm.trans hx
    exact ha
  cases Hotplug.step_effect hst with
  | answer ht hc hk hm hn => exact h.setCall (hfresh hc) nofun
  | @register c devAddr found ht hc hf hn =>
    have hset : (s.setCall c ⟨devAddr, [], .waiting, []⟩).Told arch := h.setCall (hfresh hc) nofun
    refine ⟨fun {a d} hd => ?_, hset.sending, hset.told⟩
    rcases Table.of_lookup_insert hd with ⟨rfl, rfl⟩ | ⟨-, hd⟩
    · exact ⟨_, by rw [Hotplug.lookup_setCall, if_pos rfl], rfl⟩
    · exact hset.owner hd
  | receive hc =>
    refine h.setCall (hsame hc ?_) fun n hn => ?_
    · rfl
    · obtain ⟨e, he, hr⟩ := h.told hc (List.mem_cons_of_mem _ hn)
      exact ⟨e, he, hr⟩
  | timeout hc =>
    refine h.setCall (hsame hc ?_) nofun
    rfl
  | giveUp hc ht =>
    refine (h.eraseWatcher _).setCall (hsame hc ?_) fun n hn => ?_
    · rfl
    · obtain ⟨e, he, hr⟩ := h.told hc hn
      exact ⟨e, he, hr⟩
  | @announce event order ht ha hn ho =>
    refine ⟨h.owner, ?_, fun {c call name} hc hn => ?_⟩
    · rintro _ _ _ ⟨⟩
      refine ⟨ha, fun a hm => ?_⟩
      rw [← List.mem_toFinset, ho] at hm
      exact (Finset.mem_filter.1 hm).2
    · obtain ⟨e, he, hr⟩ := h.told hc hn
      rw [Hotplug.history_idle ht] at he
      exact ⟨e, List.mem_append_left _ he, hr⟩
  | skip ht ha =>
    refine ⟨h.owner, h.sending, fun {c call name} hc hn => ?_⟩
    obtain ⟨e, he, hr⟩ := h.told hc hn
    rw [Hotplug.history_idle ht] at he
    exact ⟨e, List.mem_append_left _ (List.mem_append_left _ he), hr⟩
  | send ht hw => exact h.send ht hw
  | @remove event devAddr toRemove ht =>
    have he := h.eraseWatcher devAddr
    refine ⟨he.owner, ?_, fun hc hn => ?_⟩
    · rintro _ _ _ ⟨⟩
      exact ⟨(h.sending ht).1, nofun⟩
    · obtain ⟨e, hm, hr⟩ := h.told hc hn
      rw [Hotplug.history_notifying ht] at hm
      exact ⟨e, hm, hr⟩
  | release ht =>
    refine ⟨h.owner, nofun, fun hc hn => ?_⟩
    obtain ⟨e, hm, hr⟩ := h.told hc hn
    rw [Hotplug.history_notifying ht] at hm
    exact ⟨e, List.mem_append_left _ hm, hr⟩

theorem Hotplug.told_of_reach (h : (hotplug arch).Reachable s) : s.Told arch := by
  apply h.invariant
  · rintro s rfl
    exact ⟨nofun, nofun, nofun⟩
  · exact fun _ _ _ hs _ ht => hs.step ht

/-- What concurrent calls may expect of each other and of the uevent thread. -/
structure Hotplug.Heard (arch : TargetArch) (s : Hotplug) : Prop where
  /-- Nobody has displaced or removed the sender of a call that still waits. -/
  registered : ∀ c call, s.calls.lookup c = some call → call.phase = .waiting → call.inbox = [] →
    s.watcher.lookup call.devAddr = some c
  /-- The event that is being processed is still to be sent to the calls that wait for it. -/
  due : ∀ c call event, s.calls.lookup c = some call → call.phase = .waiting → call.inbox = [] →
    s.thread.event = some event → event.reaches arch call.devAddr → call.devAddr ∈ s.thread.toSend
  sent : ∀ c call event toSend toRemove t, s.calls.lookup c = some call → call.phase = .waiting →
    call.inbox = [] → s.thread = .notifying event (call.devAddr :: toSend) toRemove →
    s.send = some t → t.calls.lookup c = some { call with inbox := [event.devname] }
  /-- No processed event has passed a call that still waits. -/
  heard : ∀ c call, s.calls.lookup c = some call → call.phase = .waiting → call.inbox = [] →
    ∀ event ∈ s.processed, ¬ event.reaches arch call.devAddr
  received : ∀ c t, s.receive c = some t → ∃ call event, t.calls.lookup c = some call ∧
    event ∈ s.history ∧ event.reaches arch call.devAddr ∧
      call.phase = .returned (.ok (deviceNode event.devname))

/-- Calls that do not wait at one address together do not take each other's notices away. -/
theorem Hotplug.calls_heard (h : (hotplug arch).Reach NoRival s) : s.Heard arch := by
  have hs := Hotplug.sound_of_reach h
  have ht := Hotplug.told_of_reach h.reachable
  exact {
    registered := fun c call hc => (hs.attended c call hc).registered
    due := fun c call event hc hw hi he hr => (hs.attended c call hc).due hw hi event he hr.2
    sent := by
      intro c call event toSend toRemove t hc hw hi hthread hsend
      have hwatch := (hs.attended c call hc).registered hw hi
      simp only [Hotplug.send, hthread, hwatch, Option.some.injEq] at hsend
      subst hsend
      have hn : call.notify event.devname = { call with inbox := [event.devname] } := by
        simp [Call.notify, hw, hi]
      rw [← hn]
      exact (Table.lookup_update _ _ _ _).trans (by rw [if_pos rfl, hc]; rfl)
    heard := fun c call hc => (hs.attended c call hc).unheard
    received := by
      intro c t hr
      have he : Hotplug.Effect arch s (.receive c) t := Hotplug.step_effect hr
      cases he with
      | @receive c devAddr name inbox seen hc =>
        obtain ⟨event, he, hreach, rfl⟩ := ht.told hc List.mem_cons_self
        refine ⟨⟨devAddr, inbox, .returned (.ok (deviceNode event.devname)), seen⟩, event, ?_, he,
          hreach, rfl⟩
        rw [Hotplug.lookup_setCall, if_pos rfl] }

def diskPath : String := "/devices/pci0000:00/0000:00:04.0/virtio1/block/vda"

/-- Two calls wait at different addresses when the device of the first comes. -/
def twoAddresses : List HotplugAction :=
  [.lookup 0 "0000:00:04.0" none, .lookup 1 "0000:00:05.0" none,
    .begin (blockEvent diskPath "vda") ["0000:00:04.0"], .send, .remove, .release, .receive 0]

theorem Hotplug.calls_heard_twoAddresses : ∃ s : Hotplug,
    (s.calls.lookup 0).map Call.phase = some (.returned (.ok "/dev/vda")) ∧
      (s.calls.lookup 1).map Call.phase = some .waiting ∧ s.Heard .x86 := by
  have hr : ((hotplug .x86).runIf NoRival .empty twoAddresses).map (fun s =>
      ((s.calls.lookup 0).map Call.phase, (s.calls.lookup 1).map Call.phase)) =
      some (some (.returned (.ok "/dev/vda")), some .waiting) := by decide
  obtain ⟨s, hs, hp⟩ := Option.map_eq_some_iff.1 hr
  exact ⟨s, congrArg Prod.fst hp, congrArg Prod.snd hp,
    Hotplug.calls_heard (.runIf (.init rfl) hs)⟩

/-- The second call for one device displaces the sender of the first. -/
def sameAddress : List HotplugAction :=
  [.lookup 0 "0000:00:04.0" none, .lookup 1 "0000:00:04.0" none,
    .begin (blockEvent diskPath "vda") ["0000:00:04.0"], .send, .remove, .release]

theorem Hotplug.calls_displaced : ¬ ∀ s, (hotplug .x86).Reachable s → s.Heard .x86 := by
  intro h
  have hr : ((hotplug .x86).run .empty sameAddress).map (fun s => (s.calls.lookup 0, s.processed)) =
      some (some ⟨"0000:00:04.0", [], .waiting, []⟩, [blockEvent diskPath "vda"]) := by
    decide
  obtain ⟨s, hs, hp⟩ := Option.map_eq_some_iff.1 hr
  have hheard := (h s (System.reachable_of_run rfl hs)).heard 0 _ (congrArg Prod.fst hp) rfl rfl
    (blockEvent diskPath "vda")
  rw [show s.processed = _ from congrArg Prod.snd hp] at hheard
  exact hheard List.mem_cons_self ⟨by decide, by decide⟩

end KataAgent
