import KataAgent.HotplugNotices

namespace KataAgent
open Fallible Transition
set_option autoImplicit true

/-- What a block event makes of the device node at a path. -/
def nodeAfter (event : Uevent) (devpath : String) (node : Option String) : Option String :=
  if event.subsystem = "block" ∧ event.devpath = devpath then
    if event.action = "remove" then none
    else if event.devname = "" then node
    else some event.devname
  else node

/-- The name of the device that is plugged at a path after a history of events. -/
def nodeAt (history : List Uevent) (devpath : String) : Option String :=
  history.foldl (fun node event => nodeAfter event devpath node) none

theorem nodeAt_append (history : List Uevent) (event : Uevent) (devpath : String) :
    nodeAt (history ++ [event]) devpath = nodeAfter event devpath (nodeAt history devpath) := by
  rw [nodeAt]
  rw [List.foldl_append]
  rfl

theorem nodeAfter_of_ne (h : event.devpath ≠ devpath) : nodeAfter event devpath node = node :=
  if_neg fun hx => h hx.2

/-- No device is taken away, or renamed, while a call relies on it, and none is asked for after
it was taken away. -/
def DevicesStay (arch : TargetArch) (s : Hotplug) : HotplugAction → Prop
  | .lookup _ devAddr _ => ∀ event ∈ s.history, event.announced arch →
      contains event.devpath devAddr → nodeAt s.history event.devpath ≠ none
  | .begin event _ => ∀ c ∈ s.calls.keys, ∀ call ∈ s.calls.lookup c, call.phase = .waiting →
      (event.action = "remove" → s.watcher.lookup call.devAddr = some c →
        ¬ (event.announced arch ∧ watcherAccepts arch event.devpath call.devAddr)) ∧
      ∀ name ∈ call.inbox, contains event.devpath call.devAddr →
        nodeAt s.history event.devpath = some name →
          nodeAfter event event.devpath (some name) = some name
  | _ => True

instance : Decidable (DevicesStay arch s action) :=
  match action with
  | .lookup .. => inferInstanceAs (Decidable (∀ _ ∈ _, _ → _ → _ ≠ none))
  | .begin .. => inferInstanceAs (Decidable (∀ _ ∈ _, ∀ _ ∈ _, _ = _ → _ ∧ ∀ _ ∈ _, _ → _ → _))
  | .receive _ | .timeout _ | .giveUp _ | .send | .remove | .release => isTrue trivial

variable {arch : TargetArch} {s t : Hotplug} {c d : CallId} {call : Call}

/-- What the device map and the channels say agrees with what is plugged. -/
structure Hotplug.Plugged (arch : TargetArch) (s : Hotplug) : Prop where
  listed : ∀ {key name}, s.pciDeviceMap.lookup key = some name →
    ∃ event ∈ s.history, event.announced arch ∧ event.devpath = key
  mapped : ∀ {key name node}, s.pciDeviceMap.lookup key = some name →
    nodeAt s.history key = some node → node = name
  sending : ∀ {event toSend toRemove a c call}, s.thread = .notifying event toSend toRemove →
    a ∈ toSend → s.watcher.lookup a = some c → s.calls.lookup c = some call →
      call.phase = .waiting → nodeAt s.history event.devpath = some event.devname
  inbox : ∀ {c call name}, s.calls.lookup c = some call → call.phase = .waiting →
    name ∈ call.inbox → ∃ devpath, contains devpath call.devAddr ∧
      nodeAt s.history devpath = some name

theorem Hotplug.Plugged.setCall {w : Table String CallId} (h : s.Plugged arch)
    (hw : ∀ a d, w.lookup a = some d → s.watcher.lookup a = some d ∨ s.thread = .idle)
    (hc : call.phase = .waiting → s.thread = .idle ∧ call.inbox = []) :
    (Hotplug.setCall { s with watcher := w } c call).Plugged arch where
  listed := h.listed
  mapped := h.mapped
  sending := by
    intro event toSend toRemove a d x ht ha hd hx hp
    change s.thread = _ at ht
    have hd := (hw a d hd).resolve_right fun hi => by cases hi.symm.trans ht
    rcases Table.of_lookup_insert hx with ⟨-, rfl⟩ | ⟨-, hx⟩
    · cases (hc hp).1.symm.trans ht
    · exact h.sending ht ha hd hx hp
  inbox := by
    intro d x name hx hp hn
    rcases Table.of_lookup_insert hx with ⟨-, rfl⟩ | ⟨-, hx⟩
    · rw [(hc hp).2] at hn
      cases hn
    · exact h.inbox hx hp hn

/-- A device that a waiting call was told of survives the event. -/
theorem Hotplug.Plugged.inbox_after (h : s.Plugged arch)
    (hc : DevicesStay arch s (.begin event order)) (hx : s.calls.lookup c = some call)
    (hp : call.phase = .waiting) (hn : name ∈ call.inbox) : ∃ devpath,
      contains devpath call.devAddr ∧ nodeAt (s.history ++ [event]) devpath = some name := by
  obtain ⟨devpath, hm, hnode⟩ := h.inbox hx hp hn
  refine ⟨devpath, hm, ?_⟩
  rw [nodeAt_append]
  by_cases hd : event.devpath = devpath
  · subst hd
    rw [hnode]
    exact (hc c (Table.mem_keys_iff.2 ⟨call, hx⟩) call hx hp).2 name hn hm hnode
  · rw [nodeAfter_of_ne hd, hnode]

theorem Hotplug.Plugged.announce {event : Uevent} {order : List String} (h : s.Plugged arch)
    (htold : s.Told arch) (hc : DevicesStay arch s (.begin event order)) (ht : s.thread = .idle)
    (ha : event.announced arch) (ho : order.toFinset = s.interested arch event) :
    Hotplug.Plugged arch { s with
      pciDeviceMap := s.pciDeviceMap.insert event.devpath event.devname
      thread := .notifying event order order } := by
  have hhist : Hotplug.history { s with
      pciDeviceMap := s.pciDeviceMap.insert event.devpath event.devname
      thread := .notifying event order order } = s.history ++ [event] := by
    rw [Hotplug.history_idle ht]
    rfl
  refine ⟨fun {key name} hk => ?_, fun {key name node} hk hnode => ?_,
    fun {e toSend toRemove b c call} hthread hb hw hx hp => ?_, fun {c call name} hx hp hm => ?_⟩
  · rw [hhist]
    rcases Table.of_lookup_insert hk with ⟨rfl, -⟩ | ⟨-, hk⟩
    · exact ⟨event, List.mem_append_right _ List.mem_cons_self, ha, rfl⟩
    · obtain ⟨e, he, hr⟩ := h.listed hk
      exact ⟨e, List.mem_append_left _ he, hr⟩
  · rw [hhist, nodeAt_append] at hnode
    rcases Table.of_lookup_insert hk with ⟨rfl, rfl⟩ | ⟨hne, hk⟩
    · simp only [nodeAfter, ha.2.2, ha.1, and_self, if_true, if_false] at hnode
      split at hnode
      · cases hnode
      · exact (Option.some.inj hnode).symm
    · rw [nodeAfter_of_ne fun hx => hne hx.symm] at hnode
      exact h.mapped hk hnode
  · cases hthread
    have hacc : watcherAccepts arch event.devpath b := by
      rw [← List.mem_toFinset, ho] at hb
      exact (Finset.mem_filter.1 hb).2
    obtain ⟨x, hx', hxa⟩ := htold.owner hw
    cases hx.symm.trans hx'
    have hno : event.action ≠ "remove" := fun hrm =>
      (hc c (Table.mem_keys_iff.2 ⟨call, hx⟩) call hx hp).1 hrm (by rw [hxa, hw])
        ⟨ha, by rw [hxa]; exact hacc⟩
    rw [hhist, nodeAt_append]
    simp only [nodeAfter, ha.2.2, ha.1, and_self, if_true, if_false, hno]
  · rw [hhist]
    exact h.inbox_after hc hx hp hm

theorem Hotplug.Plugged.skip {event : Uevent} {order : List String} (h : s.Plugged arch)
    (hc : DevicesStay arch s (.begin event order)) (ht : s.thread = .idle)
    (ha : ¬ event.announced arch) :
    Hotplug.Plugged arch { s with processed := s.processed ++ [event] } := by
  have hhist : Hotplug.history { s with processed := s.processed ++ [event] } =
      s.history ++ [event] := by
    rw [Hotplug.history_idle ht]
    exact Hotplug.history_idle ht
  refine ⟨fun {key name} hk => ?_, fun {key name node} hk hnode => ?_,
    fun hthread => (by cases ht.symm.trans hthread), fun {c call name} hx hp hm => ?_⟩
  · rw [hhist]
    obtain ⟨e, he, hr⟩ := h.listed hk
    exact ⟨e, List.mem_append_left _ he, hr⟩
  · rw [hhist, nodeAt_append] at hnode
    rw [nodeAfter] at hnode
    split at hnode
    · rename_i hblock
      obtain ⟨e, -, hann, hpath⟩ := h.listed hk
      -- below the root bus only an event without a name is not announced
      have hempty : event.devname = "" := by
        by_contra hne
        exact ha ⟨hne, by rw [hblock.2, ← hpath]; exact hann.2.1, hblock.1⟩
      split at hnode
      · cases hnode
      · exact h.mapped hk hnode
    · exact h.mapped hk hnode
  · rw [hhist]
    exact h.inbox_after hc hx hp hm

theorem Hotplug.Plugged.send {event : Uevent} {devAddr : String} {toSend toRemove : List String}
    (h : s.Plugged arch) (htold : s.Told arch)
    (ht : s.thread = .notifying event (devAddr :: toSend) toRemove)
    (hw : s.watcher.lookup devAddr = some c) : Hotplug.Plugged arch { s with
      calls := s.calls.update c fun call => call.notify event.devname
      thread := .notifying event toSend toRemove } := by
  have hhist : Hotplug.history { s with
      calls := s.calls.update c fun call => call.notify event.devname
      thread := .notifying event toSend toRemove } = s.history :=
    (Hotplug.history_notifying rfl).trans (Hotplug.history_notifying ht).symm
  refine ⟨fun hk => hhist ▸ h.listed hk, fun hk hn => h.mapped hk (hhist ▸ hn),
    fun {e ts tr b d x} hthread hb hd hx hp => ?_, fun {d x name} hx hp hm => ?_⟩
  · cases hthread
    rw [hhist]
    rcases Table.of_lookup_update hx with ⟨hdc, y, hy, rfl⟩ | ⟨-, hx⟩
    · rw [Call.notify_phase] at hp
      exact h.sending ht (List.mem_cons_of_mem _ hb) hd (hdc ▸ hy) hp
    · exact h.sending ht (List.mem_cons_of_mem _ hb) hd hx hp
  · rw [hhist]
    rcases Table.of_lookup_update hx with ⟨-, y, hy, rfl⟩ | ⟨-, hx⟩
    · rw [Call.notify_phase] at hp
      rw [Call.notify_devAddr]
      rcases Call.mem_notify hm with hm | rfl
      · exact h.inbox hy hp hm
      · obtain ⟨z, hz, hza⟩ := htold.owner hw
        cases hy.symm.trans hz
        refine ⟨event.devpath, ?_, h.sending ht List.mem_cons_self hw hy hp⟩
        rw [hza]
        exact ((htold.sending ht).2 devAddr List.mem_cons_self).contains
    · exact h.inbox hx hp hm

theorem Hotplug.Plugged.step (h : s.Plugged arch) (htold : s.Told arch)
    (hc : DevicesStay arch s a) (hst : (hotplug arch).step s a = some t) : t.Plugged arch := by
  cases Hotplug.step_effect hst with
  | answer ht hn hk hm hne => exact h.setCall (w := s.watcher) (fun _ _ hd => .inl hd) nofun
  | register ht hn hf hd => exact h.setCall (fun _ _ _ => .inr ht) fun _ => ⟨ht, rfl⟩
  | receive hx => exact h.setCall (w := s.watcher) (fun _ _ hd => .inl hd) nofun
  | timeout hx => exact h.setCall (w := s.watcher) (fun _ _ hd => .inl hd) nofun
  | giveUp hx ht => exact h.setCall (fun _ _ _ => .inr ht) nofun
  | announce ht ha hn ho => exact h.announce htold hc ht ha ho
  | skip ht ha => exact h.skip hc ht ha
  | send ht hw => exact h.send htold ht hw
  | @remove event devAddr toRemove ht =>
    have hhist : Hotplug.history { s with
        watcher := s.watcher.erase devAddr
        thread := .notifying event [] toRemove } = s.history :=
      (Hotplug.history_notifying rfl).trans (Hotplug.history_notifying ht).symm
    refine ⟨fun hk => hhist ▸ h.listed hk, fun hk hn => h.mapped hk (hhist ▸ hn), ?_,
      fun hx hp hm => hhist ▸ h.inbox hx hp hm⟩
    rintro e ts tr b d x ⟨⟩ hb
    cases hb
  | @release event ht =>
    have hhist : Hotplug.history { s with
        thread := .idle
        processed := s.processed ++ [event] } = s.history :=
      (Hotplug.history_idle rfl).trans (Hotplug.history_notifying ht).symm
    exact ⟨fun hk => hhist ▸ h.listed hk, fun hk hn => h.mapped hk (hhist ▸ hn), nofun,
      fun hx hp hm => hhist ▸ h.inbox hx hp hm⟩

/-- A call that the step answers gets the name of a device that is plugged at its address. -/
def Hotplug.AnswersPlugged (s t : Hotplug) : Prop :=
  ∀ c call path, s.calls.lookup c ≠ some call → t.calls.lookup c = some call →
    call.phase = .returned (.ok path) → ∃ devpath name, path = deviceNode name ∧
      contains devpath call.devAddr ∧ nodeAt t.history devpath = some name

theorem Hotplug.plugged_of_reach (h : (hotplug arch).Reach (DevicesStay arch) s) :
    s.Plugged arch := by
  have hinv : s.Told arch ∧ s.Plugged arch := by
    apply h.invariant (I := fun s => s.Told arch ∧ s.Plugged arch)
    · rintro s rfl
      exact ⟨Hotplug.told_of_reach (.init rfl), nofun, nofun, nofun, nofun⟩
    · exact fun s a t hs hc ht => ⟨hs.1.step ht, hs.2.step hs.1 hc ht⟩
  exact hinv.2

/-- While devices stay as long as calls rely on them, no answer is stale. -/
theorem Hotplug.answers_plugged (h : (hotplug arch).Reach (DevicesStay arch) s)
    (hc : DevicesStay arch s a) (hst : (hotplug arch).step s a = some t) : s.AnswersPlugged t := by
  have hp := Hotplug.plugged_of_reach h
  have hset : ∀ {u : Hotplug} {c d call x}, u.calls = s.calls → s.calls.lookup d ≠ some x →
      (u.setCall c call).calls.lookup d = some x → x = call := by
    intro u c d call x hu hne hx
    rw [Hotplug.lookup_setCall, hu] at hx
    split at hx
    · exact (Option.some.inj hx).symm
    · exact absurd hx hne
  intro d x path hne hx hr
  cases Hotplug.step_effect hst with
  | @answer c key name devAddr ht hn hk hm hname =>
    cases hset rfl hne hx
    cases hr
    obtain ⟨event, he, ha, rfl⟩ := hp.listed hk
    obtain ⟨node, hnode⟩ := Option.ne_none_iff_exists'.1 (hc event he ha hm)
    refine ⟨event.devpath, name, rfl, hm, ?_⟩
    rw [← hp.mapped hk hnode]
    exact hnode
  | register ht hn hf hd =>
    cases hset rfl hne hx
    cases hr
  | @receive c devAddr name inbox seen hcall =>
    cases hset rfl hne hx
    cases hr
    obtain ⟨devpath, hm, hnode⟩ := hp.inbox hcall rfl List.mem_cons_self
    exact ⟨devpath, name, rfl, hm, hnode⟩
  | timeout hcall =>
    cases hset rfl hne hx
    cases hr
  | giveUp hcall ht =>
    cases hset rfl hne hx
    cases hr
  | announce => exact absurd hx hne
  | skip => exact absurd hx hne
  | @send event devAddr toSend toRemove c ht hw =>
    rcases Table.of_lookup_update hx with ⟨hdc, y, hy, rfl⟩ | ⟨-, hx⟩
    · rw [Call.notify_phase] at hr
      have hsame : y.notify event.devname = y := by simp [Call.notify, hr]
      rw [hsame, hdc] at hne
      exact absurd hy hne
    · exact absurd hx hne
  | remove => exact absurd hx hne
  | release => exact absurd hx hne

def removeEvent (devpath devname : String) : Uevent :=
  ⟨"remove", devpath, devname, "block", "", ""⟩

/-- Events that find no call waiting. -/
def passBy (events : List Uevent) : List HotplugAction :=
  events.flatMap fun event => [.begin event [], .release]

/-- The address is used again before the call. -/
def plugAgain : List Uevent :=
  [blockEvent diskPath "vda", removeEvent diskPath "vda", blockEvent diskPath "vdb"]

theorem Hotplug.answers_plugged_plugAgain : ∃ s t : Hotplug,
    (hotplug .x86).runIf (DevicesStay .x86) .empty (passBy plugAgain) = some s ∧
      (t.calls.lookup 0).map Call.phase = some (.returned (.ok "/dev/vdb")) ∧
        s.AnswersPlugged t := by
  have hr : (((hotplug .x86).runIf (DevicesStay .x86) .empty (passBy plugAgain)).bind fun s =>
      ((hotplug .x86).runIf (DevicesStay .x86) s [.lookup 0 "0000:00:04.0" (some diskPath)]).map
        fun t => (t.calls.lookup 0).map Call.phase) =
      some (some (.returned (.ok "/dev/vdb"))) := by decide
  obtain ⟨s, hs, hr⟩ := Option.bind_eq_some_iff.1 hr
  obtain ⟨t, ht, hp⟩ := Option.map_eq_some_iff.1 hr
  obtain ⟨hrun, ha, -⟩ := System.run_of_runIf ht
  obtain ⟨u, hu, hrun⟩ := Option.bind_eq_some_iff.1 hrun
  cases hrun
  exact ⟨s, t, hs, hp, Hotplug.answers_plugged (.runIf (.init rfl) hs) ha hu⟩

/-- The device is gone when the call asks for it. -/
theorem Hotplug.answers_stale : ¬ ∀ s t a, (hotplug .x86).Reachable s →
    (hotplug .x86).step s a = some t → s.AnswersPlugged t := by
  intro h
  have hr : (((hotplug .x86).run .empty (passBy
      [blockEvent diskPath "vda", removeEvent diskPath "vda"])).bind fun s =>
      ((hotplug .x86).step s (.lookup 0 "0000:00:04.0" (some diskPath))).map fun t =>
        (s.calls.lookup 0, t.calls.lookup 0, t.history)) = some (none,
      some ⟨"0000:00:04.0", [], .returned (.ok "/dev/vda"), []⟩,
      [blockEvent diskPath "vda", removeEvent diskPath "vda"]) := by decide
  obtain ⟨s, hs, hr⟩ := Option.bind_eq_some_iff.1 hr
  obtain ⟨t, ht, hp⟩ := Option.map_eq_some_iff.1 hr
  have hold : s.calls.lookup 0 = none := congrArg Prod.fst hp
  have hnew : t.calls.lookup 0 = some _ := congrArg (fun x => x.2.1) hp
  have hhist : t.history = _ := congrArg (fun x => x.2.2) hp
  obtain ⟨devpath, name, -, -, hnode⟩ := h s t _ (System.reachable_of_run rfl hs) ht 0 _ _
    (by rw [hold]; nofun) hnew rfl
  rw [hhist] at hnode
  have hgone : nodeAt [blockEvent diskPath "vda", removeEvent diskPath "vda"] devpath = none := by
    by_cases hd : devpath = diskPath
    · rw [hd]
      decide
    · have hne : diskPath ≠ devpath := fun hx => hd hx.symm
      simp [nodeAt, nodeAfter, blockEvent, removeEvent, hne]
  cases hgone.symm.trans hnode

end KataAgent
