import KataAgent.RouteListing

namespace KataAgent
open Fallible Records
set_option autoImplicit true

def RTPROTO_KERNEL : UInt8 := 2

deriving instance DecidableEq for Builder

/-- What the kernel makes of the requests of an update. -/
structure RouteKernel where
  /-- The fault at a request, by its number. -/
  refuses : Nat → Option ErrorKind
  links : UInt32 → Nat → Outcome ErrorKind Bytes
  /-- The entry of the table that a request for deletion takes off. -/
  taken : List Bytes → RtRoute → Option Bytes
  /-- The entry that a request for a new route makes. -/
  made : RtRoute → Bytes

structure RouteSocket where
  table : List Bytes
  /-- The requests for changes that were accepted. -/
  sent : List Builder
  requests : Nat
  deriving DecidableEq

variable {K : RouteKernel} {cv : Converter} {s t : RouteSocket} {table : List Bytes}
  {rs : List DumpedRoute} {rt : List Route} {r : DumpedRoute}

/-- Requests for other things leave the routes as they are. -/
def RouteKernel.change (K : RouteKernel) (table : List Bytes) :
    Builder → Outcome ErrorKind (List Bytes)
  | .deleteOneRoute r =>
    match K.taken table r with
    | some m => .ok (table.erase m)
    | none => .err (.nix ESRCH)
  | .addOneRoute r => .ok (table ++ [K.made r])
  | _ => .ok table

/-- A request that only reads. The requests for one name count as one. -/
def RouteKernel.ask (K : RouteKernel) (read : List Bytes → Outcome ErrorKind α) :
    Act RouteSocket ErrorKind α :=
  .ask K.refuses (·.requests) (fun s => { s with requests := s.requests + 1 }) fun s => read s.table

def RouteKernel.talk (K : RouteKernel) (b : Builder) : Act RouteSocket ErrorKind Unit := do
  let table ← K.ask fun table => K.change table b
  Act.modify fun s => { s with table, sent := s.sent ++ [b] }

def deleteAllRoutes (K : RouteKernel) (rs : List DumpedRoute) : Act RouteSocket ErrorKind Unit :=
  rs.forM fun r => do
    let name ← K.ask fun _ => getNameByIndex K.links r.index
    if contains name "lo" ∨ contains name "::1" then pure ()
    else if r.protocol = RTPROTO_KERNEL then pure ()
    else K.talk (.deleteOneRoute r.toRtRoute)

def addRoute (K : RouteKernel) (cv : Converter) (grpcroute : Route) :
    Act RouteSocket ErrorKind Unit := do
  let r ← .lift (rtRouteFrom cv grpcroute)
  K.talk (.addOneRoute r)

def updateRoutes (K : RouteKernel) (cv : Converter) (rt : List Route) :
    Act RouteSocket ErrorKind (List Route) := do
  let rs ← K.ask fun table => getAllRoutes (.ok table)
  deleteAllRoutes K rs
  rt.forM fun r => if r.gateway = "" then addRoute K cv r else pure ()
  rt.forM fun r => if r.gateway ≠ "" then addRoute K cv r else pure ()
  pure rt

/-- One request of an update. -/
inductive RouteStep where
  | dump
  | name (index : UInt32)
  | delete (r : RtRoute)
  | add (r : Route)
  deriving DecidableEq

def RouteStep.perform (K : RouteKernel) (cv : Converter) :
    RouteStep → Act RouteSocket ErrorKind Unit
  | .dump => do
    let _ ← K.ask fun table => getAllRoutes (.ok table)
    pure ()
  | .name index => do
    let _ ← K.ask fun _ => getNameByIndex K.links index
    pure ()
  | .delete r => K.talk (.deleteOneRoute r)
  | .add r => addRoute K cv r

/-- The route is one that `delete_all_routes` deletes. -/
def DumpedRoute.deleted (K : RouteKernel) (r : DumpedRoute) : Bool :=
  match getNameByIndex K.links r.index with
  | .ok name => ¬ (contains name "lo" ∨ contains name "::1") ∧ r.protocol ≠ RTPROTO_KERNEL
  | _ => false

def deleteSteps (K : RouteKernel) (r : DumpedRoute) : List RouteStep :=
  .name r.index :: if r.deleted K then [.delete r.toRtRoute] else []

/-- The requested routes in the order in which they are added. -/
def addOrder (rt : List Route) : List Route :=
  rt.filter (·.gateway = "") ++ rt.filter (·.gateway ≠ "")

/-- The requests behind the dump. -/
def changeSteps (K : RouteKernel) (rs : List DumpedRoute) (rt : List Route) : List RouteStep :=
  (rs.map (deleteSteps K)).flatten ++ (addOrder rt).map .add

/-- The requests of an update, one after the other, as long as none fails. -/
def routeSteps (K : RouteKernel) (table : List Bytes) (rt : List Route) : List RouteStep :=
  .dump :: match getAllRoutes (.ok table) with
    | .ok rs => changeSteps K rs rt
    | _ => []

/-- The change that a step asks for. -/
def RouteStep.builder (cv : Converter) : RouteStep → Option Builder
  | .delete r => some (.deleteOneRoute r)
  | .add r =>
    match rtRouteFrom cv r with
    | .ok r => some (.addOneRoute r)
    | _ => none
  | _ => none

def changes (cv : Converter) (steps : List RouteStep) : List Builder :=
  steps.filterMap (RouteStep.builder cv)

/-- The name can be read, and the texts of the route convert. -/
def RouteStep.Passes (K : RouteKernel) (cv : Converter) : RouteStep → Prop
  | .name index => ∃ name, getNameByIndex K.links index = .ok name
  | .add r => ∃ rt, rtRouteFrom cv r = .ok rt
  | _ => True

/-- The steps were taken: the kernel made the changes. -/
def Took (K : RouteKernel) (bs : List Builder) (n : Nat) (s t : RouteSocket) : Prop :=
  bs.foldlM K.change s.table = .ok t.table ∧ t.sent = s.sent ++ bs ∧ t.requests = s.requests + n

theorem RouteKernel.ask_apply (K : RouteKernel) (o : Outcome ErrorKind α) :
    K.ask (fun _ => o) s = (.ofFault (K.refuses s.requests) >>= fun _ => o,
      { s with requests := s.requests + 1 }) := by
  rw [RouteKernel.ask, Act.ask]
  cases K.refuses s.requests with
  | some e => rfl
  | none => rfl

/-- The pass of `delete_all_routes` for a route. -/
theorem deleteSteps_forM : (deleteSteps K r).forM (RouteStep.perform K cv) =
    K.ask (fun _ => getNameByIndex K.links r.index) >>= fun name =>
      if contains name "lo" ∨ contains name "::1" then pure ()
      else if r.protocol = RTPROTO_KERNEL then pure ()
      else K.talk (.deleteOneRoute r.toRtRoute) := by
  have hlast (b : Builder) : (K.talk b >>= fun _ => pure ()) = K.talk b := Act.bind_pure _
  funext s
  change ((K.ask _ >>= fun _ => pure ()) >>= _) s = _
  rw [Act.bind_assoc, Act.bind_apply, Act.bind_apply, RouteKernel.ask_apply, DumpedRoute.deleted]
  cases K.refuses s.requests with
  | some e => rfl
  | none =>
    cases hn : getNameByIndex K.links r.index with
    | err e => rfl
    | panic => rfl
    | ok name =>
      by_cases hl : contains name "lo" ∨ contains name "::1"
      · simp [hl, Outcome.ofFault]
        rfl
      · by_cases hp : r.protocol = RTPROTO_KERNEL
        · simp [hl, hp, Outcome.ofFault]
          rfl
        · have hd : decide (¬ (contains name "lo" ∨ contains name "::1") ∧
            r.protocol ≠ RTPROTO_KERNEL) = true := decide_eq_true ⟨hl, hp⟩
          simp only [Outcome.ofFault, Outcome.ok_bind, hd, if_true, if_neg hl, if_neg hp]
          exact congrFun (hlast _) _

theorem deleteAllRoutes_eq (cv : Converter) :
    deleteAllRoutes K rs = ((rs.map (deleteSteps K)).flatten.forM (RouteStep.perform K cv)) := by
  induction rs with
  | nil => rfl
  | cons r rs ih =>
    rw [List.map_cons, List.flatten_cons, Act.forM_append, ← ih, deleteSteps_forM]
    rfl

theorem addRoutes_eq (K : RouteKernel) (cv : Converter) (rt : List Route) (p : Route → Bool) :
    (rt.forM fun r => if p r then addRoute K cv r else pure ()) =
      ((rt.filter p).map .add).forM (RouteStep.perform K cv) := by
  induction rt with
  | nil => rfl
  | cons r rt ih =>
    change ((if p r then addRoute K cv r else pure ()) >>= fun _ => rt.forM _) = _
    rw [ih]
    cases hp : p r with
    | true =>
      rw [List.filter_cons_of_pos hp]
      rfl
    | false =>
      rw [List.filter_cons_of_neg (by rw [hp]; exact nofun)]
      rfl

/-- An update performs its requests one after the other. -/
theorem updateRoutes_eq : updateRoutes K cv rt s =
    ((routeSteps K s.table rt).forM (RouteStep.perform K cv) >>= fun _ => pure rt) s := by
  have hplain := addRoutes_eq K cv rt fun r => r.gateway = ""
  have hgateway := addRoutes_eq K cv rt fun r => r.gateway ≠ ""
  simp only [decide_eq_true_eq] at hplain hgateway
  change (K.ask _ >>= _) s = (((K.ask _ >>= fun _ => pure ()) >>= _) >>= _) s
  rw [Act.bind_assoc, Act.bind_assoc, Act.bind_apply, Act.bind_apply, RouteKernel.ask,
    Act.ask]
  cases K.refuses s.requests with
  | some e => rfl
  | none =>
    cases ha : getAllRoutes (.ok s.table) with
    | err e => rfl
    | panic => rfl
    | ok rs =>
      dsimp only
      rw [deleteAllRoutes_eq cv, hplain, hgateway]
      change _ = ((changeSteps K rs rt).forM (RouteStep.perform K cv) >>= fun _ => pure rt)
        { s with requests := s.requests + 1 }
      rw [changeSteps, addOrder, List.map_append, Act.forM_append, Act.forM_append, Act.bind_assoc,
        Act.bind_assoc]

theorem RouteKernel.ask_eq_ok {read : List Bytes → Outcome ErrorKind α} {a : α} :
    K.ask read s = (.ok a, t) ↔ K.refuses s.requests = none ∧ read s.table = .ok a ∧
      t = { s with requests := s.requests + 1 } := Act.ask_eq_ok

theorem RouteKernel.talk_eq_ok {b : Builder} : K.talk b s = (.ok (), t) ↔
    K.refuses s.requests = none ∧ ∃ table, K.change s.table b = .ok table ∧
      t = ⟨table, s.sent ++ [b], s.requests + 1⟩ := by
  rw [RouteKernel.talk, Act.bind_eq_ok]
  constructor
  · rintro ⟨table, u, ha, hm⟩
    obtain ⟨hr, hc, rfl⟩ := RouteKernel.ask_eq_ok.1 ha
    cases hm
    exact ⟨hr, table, hc, rfl⟩
  · rintro ⟨hr, table, hc, rfl⟩
    exact ⟨table, _, RouteKernel.ask_eq_ok.2 ⟨hr, hc, rfl⟩, rfl⟩

theorem Took.one {b : Builder} {table : List Bytes} (h : K.change s.table b = .ok table) :
    Took K [b] 1 s ⟨table, s.sent ++ [b], s.requests + 1⟩ := by
  refine ⟨?_, rfl, rfl⟩
  rw [List.foldlM_cons, h]
  rfl

theorem Took.trans {as bs : List Builder} {n m : Nat} {u : RouteSocket} (h : Took K as n s t)
    (h' : Took K bs m t u) : Took K (as ++ bs) (n + m) s u := by
  obtain ⟨ht, hs, hr⟩ := h
  obtain ⟨ht', hs', hr'⟩ := h'
  refine ⟨?_, ?_, ?_⟩
  · rw [List.foldlM_append, ht]
    exact ht'
  · rw [hs', hs, List.append_assoc]
  · rw [hr', hr, Nat.add_assoc]

/-- What a step that succeeds does. -/
theorem RouteStep.perform_ok {step : RouteStep} (h : step.perform K cv s = (.ok (), t)) :
    step.Passes K cv ∧ Took K (step.builder cv).toList 1 s t := by
  cases step with
  | dump =>
    obtain ⟨rs, u, ha, ⟨⟩⟩ := Act.bind_eq_ok.1 h
    obtain ⟨-, -, rfl⟩ := RouteKernel.ask_eq_ok.1 ha
    exact ⟨trivial, rfl, (List.append_nil _).symm, rfl⟩
  | name index =>
    obtain ⟨name, u, ha, ⟨⟩⟩ := Act.bind_eq_ok.1 h
    obtain ⟨-, hn, rfl⟩ := RouteKernel.ask_eq_ok.1 ha
    exact ⟨⟨name, hn⟩, rfl, (List.append_nil _).symm, rfl⟩
  | delete r =>
    obtain ⟨-, table, hc, rfl⟩ := RouteKernel.talk_eq_ok.1 h
    exact ⟨trivial, .one hc⟩
  | add r =>
    obtain ⟨rt, u, hl, ht⟩ := Act.bind_eq_ok.1 h
    rw [Act.lift_apply] at hl
    obtain ⟨hrt, rfl⟩ := Prod.ext_iff.1 hl
    obtain ⟨-, table, hc, rfl⟩ := RouteKernel.talk_eq_ok.1 ht
    refine ⟨⟨rt, hrt⟩, ?_⟩
    rw [RouteStep.builder, show rtRouteFrom cv r = .ok rt from hrt]
    exact .one hc

/-- Where the kernel refuses nothing, a step succeeds if it passes and its change can be made. -/
theorem RouteStep.perform_of_passes {step : RouteStep} (hr : K.refuses s.requests = none)
    (hd : step ≠ .dump) (hp : step.Passes K cv)
    (hc : ∃ table, (step.builder cv).toList.foldlM K.change s.table = .ok table) :
    ∃ t, step.perform K cv s = (.ok (), t) := by
  cases step with
  | dump => exact absurd rfl hd
  | name index =>
    obtain ⟨name, hn⟩ := hp
    exact ⟨_, Act.bind_eq_ok.2 ⟨name, _, RouteKernel.ask_eq_ok.2 ⟨hr, hn, rfl⟩, rfl⟩⟩
  | delete r =>
    obtain ⟨table, hc⟩ := hc
    obtain ⟨table', hc, ⟨⟩⟩ := Outcome.bind_eq_ok.1 hc
    exact ⟨_, RouteKernel.talk_eq_ok.2 ⟨hr, table, hc, rfl⟩⟩
  | add r =>
    obtain ⟨rt, hrt⟩ := hp
    obtain ⟨table, hc⟩ := hc
    rw [RouteStep.builder, hrt] at hc
    obtain ⟨table', hc, ⟨⟩⟩ := Outcome.bind_eq_ok.1 hc
    refine ⟨_, Act.bind_eq_ok.2 ⟨rt, s, ?_, RouteKernel.talk_eq_ok.2 ⟨hr, table, hc, rfl⟩⟩⟩
    rw [Act.lift_apply, hrt]

theorem filterMap_cons_toList {f : α → Option β} {a : α} {l : List α} :
    (a :: l).filterMap f = (f a).toList ++ l.filterMap f := by
  rw [List.filterMap_cons]
  cases f a with
  | none => rfl
  | some b => rfl

theorem changes_cons {step : RouteStep} {steps : List RouteStep} :
    changes cv (step :: steps) = (step.builder cv).toList ++ changes cv steps :=
  filterMap_cons_toList

theorem forM_perform_ok {steps : List RouteStep}
    (h : steps.forM (RouteStep.perform K cv) s = (.ok (), t)) :
    (∀ step ∈ steps, step.Passes K cv) ∧ Took K (changes cv steps) steps.length s t := by
  induction steps generalizing s with
  | nil =>
    cases h
    exact ⟨nofun, rfl, (List.append_nil _).symm, rfl⟩
  | cons step steps ih =>
    obtain ⟨⟨⟩, u, hs, h⟩ := Act.bind_eq_ok.1 h
    obtain ⟨hp, ht⟩ := RouteStep.perform_ok hs
    obtain ⟨hps, hts⟩ := ih h
    refine ⟨List.forall_mem_cons.2 ⟨hp, hps⟩, ?_⟩
    rw [changes_cons, List.length_cons, Nat.add_comm]
    exact ht.trans hts

theorem forM_perform_of_passes {steps : List RouteStep} (hr : ∀ n, K.refuses n = none)
    (hp : ∀ step ∈ steps, step ≠ .dump ∧ step.Passes K cv)
    (hc : ∃ table, (changes cv steps).foldlM K.change s.table = .ok table) :
    ∃ t, steps.forM (RouteStep.perform K cv) s = (.ok (), t) := by
  induction steps generalizing s with
  | nil => exact ⟨s, rfl⟩
  | cons step steps ih =>
    obtain ⟨⟨hd, hp⟩, hps⟩ := List.forall_mem_cons.1 hp
    obtain ⟨table, hc⟩ := hc
    rw [changes_cons, List.foldlM_append] at hc
    obtain ⟨table', hc, hcs⟩ := Outcome.bind_eq_ok.1 hc
    obtain ⟨u, hu⟩ := RouteStep.perform_of_passes (hr _) hd hp ⟨table', hc⟩
    obtain ⟨htable, -⟩ := (RouteStep.perform_ok hu).2
    cases hc.symm.trans htable
    obtain ⟨t, ht⟩ := ih hps ⟨table, hcs⟩
    exact ⟨t, Act.bind_eq_ok.2 ⟨(), u, hu, ht⟩⟩

theorem updateRoutes_ok_iff (ha : getAllRoutes (.ok s.table) = .ok rs) :
    updateRoutes K cv rt s = (.ok rt, t) ↔ K.refuses s.requests = none ∧
      (changeSteps K rs rt).forM (RouteStep.perform K cv) { s with requests := s.requests + 1 } =
        (.ok (), t) := by
  rw [updateRoutes_eq, routeSteps, ha, Act.bind_eq_ok]
  constructor
  · rintro ⟨⟨⟩, u, hs, ⟨⟩⟩
    obtain ⟨⟨⟩, v, hd, hc⟩ := Act.bind_eq_ok.1 hs
    obtain ⟨rs', w, hk, ⟨⟩⟩ := Act.bind_eq_ok.1 hd
    obtain ⟨hr, -, rfl⟩ := RouteKernel.ask_eq_ok.1 hk
    exact ⟨hr, hc⟩
  · rintro ⟨hr, hc⟩
    have hd : RouteStep.dump.perform K cv s = (.ok (), { s with requests := s.requests + 1 }) :=
      Act.bind_eq_ok.2 ⟨rs, _, RouteKernel.ask_eq_ok.2 ⟨hr, ha, rfl⟩, rfl⟩
    exact ⟨(), t, Act.bind_eq_ok.2 ⟨(), _, hd, hc⟩, rfl⟩

theorem changes_append {as bs : List RouteStep} :
    changes cv (as ++ bs) = changes cv as ++ changes cv bs := List.filterMap_append

theorem changes_deleteSteps : changes cv (rs.map (deleteSteps K)).flatten =
    (rs.filter (·.deleted K)).map fun r => .deleteOneRoute r.toRtRoute := by
  induction rs with
  | nil => rfl
  | cons r rs ih =>
    rw [List.map_cons, List.flatten_cons, changes_append, ih, deleteSteps]
    cases hd : r.deleted K with
    | true =>
      rw [List.filter_cons_of_pos hd]
      rfl
    | false =>
      rw [List.filter_cons_of_neg (by rw [hd]; exact nofun)]
      rfl

theorem changes_add {adds : List RtRoute}
    (h : List.Forall₂ (fun g r => rtRouteFrom cv g = .ok r) rt adds) :
    changes cv (rt.map .add) = adds.map .addOneRoute := by
  induction h with
  | nil => rfl
  | cons hr _ ih =>
    rw [List.map_cons, List.map_cons, changes_cons, ih, RouteStep.builder, hr]
    rfl

/-- The reply is about a link, and it has a name. -/
structure NamesLink (reply name : Bytes) : Prop where
  formed : Family.link.Formed reply
  reads : Family.link.reads reply = true
  name : Family.link.payload reply IFLA_IFNAME = some (name ++ [0])

theorem NamesLink.nameOf {reply name : Bytes} (h : NamesLink reply name) :
    KataAgent.nameOf reply = fromUtf8 (name ++ [0]) >>= fun name => .ok (some name) := by
  obtain ⟨attrs, hp, hat⟩ := h.formed.parse (IFLA_MAX + 1)
  have hsize : 32 ≤ reply.length := h.formed.header
  have hlen := h.formed.length_eq
  have hname := h.name
  rw [Family.payload] at hname
  obtain ⟨t, ht, hdrop⟩ := Option.map_eq_some_iff.1 hname
  rw [KataAgent.nameOf, if_neg (by omega), if_neg (by rw [h.reads, hlen]; simp [hsize]), hp,
    Outcome.ok_bind, hat IFLA_IFNAME (by decide), ht]
  dsimp only
  rw [Family.getattrVar_attr ht, hdrop]
  rfl

theorem getNameByIndex_eq {index : UInt32} {name : Bytes}
    (h : ∀ n, ∃ reply, K.links index n = .ok reply ∧ NamesLink reply name) :
    getNameByIndex K.links index = fromUtf8 (name ++ [0]) := by
  obtain ⟨reply, hl, hn⟩ := h 4
  rw [getNameByIndex, nameWithin, hl, Outcome.ok_bind, hn.nameOf]
  cases fromUtf8 (name ++ [0]) with
  | ok text => rfl
  | err e => rfl
  | panic => rfl

/-- The name `lo`. -/
def loopback : Bytes := [108, 111]

/-- The route is not the kernel's own, and does not leave through the loopback interface. -/
def DumpedRoute.stale (names : UInt32 → Bytes) (r : DumpedRoute) : Bool :=
  r.protocol ≠ RTPROTO_KERNEL ∧ names r.index ≠ loopback

/-- The stale routes are deleted in the order of the table, and then the requested ones are added,
those without a gateway first. -/
def Replaces (K : RouteKernel) (cv : Converter) (names : UInt32 → Bytes) (rs : List DumpedRoute)
    (rt : List Route) (s : RouteSocket) : Prop :=
  ∃ adds t, List.Forall₂ (fun g r => rtRouteFrom cv g = .ok r)
      (rt.filter (·.gateway = "") ++ rt.filter (·.gateway ≠ "")) adds ∧
    updateRoutes K cv rt s = (.ok rt, t) ∧
    t.sent = s.sent ++ ((rs.filter (·.stale names)).map fun r => .deleteOneRoute r.toRtRoute) ++
      adds.map .addOneRoute

/-- The name is text, and it does not only look like one of the loopback interface. -/
def TellsLoopback (names : UInt32 → Bytes) (r : DumpedRoute) : Prop :=
  ∃ text, fromUtf8 (names r.index ++ [0]) = .ok text ∧
    (r.stale names = true → ¬ (contains text "lo" ∨ contains text "::1"))

theorem filter_eq_filter_iff {p q : α → Bool} {l : List α} (h : ∀ a ∈ l, p a = true → q a = true) :
    l.filter p = l.filter q ↔ ∀ a ∈ l, q a = true → p a = true := by
  constructor
  · intro he a ha hq
    have hm : a ∈ l.filter p := by
      rw [he]
      exact List.mem_filter.2 ⟨ha, hq⟩
    exact (List.mem_filter.1 hm).2
  · intro hqp
    apply List.filter_congr
    intro a ha
    exact Bool.eq_iff_iff.2 ⟨h a ha, hqp a ha⟩

theorem filter_eq_of_length {p q : α → Bool} {l : List α} (h : ∀ a ∈ l, p a = true → q a = true)
    (hl : (l.filter p).length = (l.filter q).length) : l.filter p = l.filter q := by
  have hp : (l.filter q).filter p = l.filter p := by
    rw [List.filter_filter]
    apply List.filter_congr
    intro a ha
    cases hpa : p a with
    | true => exact h a ha hpa
    | false => rfl
  have hs : (l.filter p).Sublist (l.filter q) := hp ▸ List.filter_sublist
  exact hs.eq_of_length hl

theorem DumpedRoute.deleted_iff {text : String} (h : getNameByIndex K.links r.index = .ok text) :
    r.deleted K = true ↔
      ¬ (contains text "lo" ∨ contains text "::1") ∧ r.protocol ≠ RTPROTO_KERNEL := by
  rw [DumpedRoute.deleted, h]
  exact decide_eq_true_iff

/-- The name of the loopback interface contains `lo`. -/
theorem DumpedRoute.stale_of_deleted {names : UInt32 → Bytes}
    (hn : getNameByIndex K.links r.index = fromUtf8 (names r.index ++ [0]))
    (h : r.deleted K = true) : r.stale names = true := by
  cases ht : getNameByIndex K.links r.index with
  | err e =>
    rw [DumpedRoute.deleted, ht] at h
    cases h
  | panic =>
    rw [DumpedRoute.deleted, ht] at h
    cases h
  | ok text =>
    obtain ⟨hl, hp⟩ := (DumpedRoute.deleted_iff ht).1 h
    refine decide_eq_true ⟨hp, fun hlo => hl (.inl ?_)⟩
    rw [hn, hlo] at ht
    have hlo : fromUtf8 (loopback ++ [0]) = .ok "lo\x00" := by decide
    cases hlo.symm.trans ht
    decide

theorem mem_addOrder {g : Route} : g ∈ addOrder rt ↔ g ∈ rt := by
  by_cases hg : g.gateway = "" <;> simp [addOrder, hg]

theorem deleteSteps_passes_iff : (∀ step ∈ deleteSteps K r, step.Passes K cv) ↔
    ∃ name, getNameByIndex K.links r.index = .ok name := by
  rw [deleteSteps, List.forall_mem_cons]
  refine and_iff_left fun step hm => ?_
  split at hm
  · cases List.mem_singleton.1 hm
    trivial
  · cases hm

theorem changeSteps_passes_iff : (∀ step ∈ changeSteps K rs rt, step.Passes K cv) ↔
    (∀ r ∈ rs, ∃ name, getNameByIndex K.links r.index = .ok name) ∧
      ∀ g ∈ rt, ∃ r, rtRouteFrom cv g = .ok r := by
  rw [changeSteps, List.forall_mem_append, List.forall_mem_flatten, List.forall_mem_map,
    List.forall_mem_map]
  have hadd (g : Route) : (RouteStep.add g).Passes K cv ↔ ∃ r, rtRouteFrom cv g = .ok r := .rfl
  simp only [deleteSteps_passes_iff, hadd, mem_addOrder]

theorem changeSteps_ne_dump : ∀ step ∈ changeSteps K rs rt, step ≠ .dump := by
  rw [changeSteps, List.forall_mem_append, List.forall_mem_flatten, List.forall_mem_map,
    List.forall_mem_map]
  refine ⟨fun r _ => ?_, fun _ _ => nofun⟩
  rw [deleteSteps, List.forall_mem_cons]
  refine ⟨nofun, fun step hm => ?_⟩
  split at hm
  · cases List.mem_singleton.1 hm
    exact nofun
  · cases hm

theorem tellsLoopback_iff {names : UInt32 → Bytes}
    (hn : getNameByIndex K.links r.index = fromUtf8 (names r.index ++ [0])) :
    TellsLoopback names r ↔ (∃ text, getNameByIndex K.links r.index = .ok text) ∧
      (r.stale names = true → r.deleted K = true) := by
  rw [TellsLoopback, ← hn]
  constructor
  · rintro ⟨text, ht, hl⟩
    refine ⟨⟨text, ht⟩, fun hs => (DumpedRoute.deleted_iff ht).2 ⟨hl hs, ?_⟩⟩
    exact (of_decide_eq_true hs).1
  · rintro ⟨⟨text, ht⟩, hd⟩
    exact ⟨text, ht, fun hs => ((DumpedRoute.deleted_iff ht).1 (hd hs)).1⟩

/-- When the kernel accepts the requests, an update replaces the stale routes by the requested ones
exactly where each link has a text as its name, only the loopback interface has one with `lo` or
`::1` in it among those of the stale routes, and the requested routes convert. -/
theorem updateRoutes_replaces_iff (K : RouteKernel) (cv : Converter) (names : UInt32 → Bytes)
    (rs : List DumpedRoute) (rt : List Route) (s : RouteSocket) (hr : ∀ n, K.refuses n = none)
    (ha : getAllRoutes (.ok s.table) = .ok rs)
    (hn : ∀ r ∈ rs, ∀ n, ∃ reply, K.links r.index n = .ok reply ∧ NamesLink reply (names r.index))
    (hc : ∃ table, (changes cv (changeSteps K rs rt)).foldlM K.change s.table = .ok table) :
    Replaces K cv names rs rt s ↔
      (∀ r ∈ rs, TellsLoopback names r) ∧ ∀ g ∈ rt, ∃ r, rtRouteFrom cv g = .ok r := by
  have hname (r) (hm : r ∈ rs) := getNameByIndex_eq (hn r hm)
  have hsent (adds)
      (hadds : List.Forall₂ (fun g r => rtRouteFrom cv g = .ok r) (addOrder rt) adds) :
      changes cv (changeSteps K rs rt) =
        ((rs.filter (·.deleted K)).map fun r => .deleteOneRoute r.toRtRoute) ++
          adds.map .addOneRoute := by
    rw [changeSteps, changes_append, changes_deleteSteps, changes_add hadds]
  have hstale (r) (hm : r ∈ rs) := DumpedRoute.stale_of_deleted (hname r hm)
  have htells : (∀ r ∈ rs, TellsLoopback names r) ↔
      (∀ r ∈ rs, ∃ text, getNameByIndex K.links r.index = .ok text) ∧
        rs.filter (·.deleted K) = rs.filter (·.stale names) := by
    rw [filter_eq_filter_iff hstale, ← forall₂_and]
    exact forall_congr' fun r => forall_congr' fun hm => tellsLoopback_iff (hname r hm)
  rw [htells]
  constructor
  · rintro ⟨adds, t, hadds, hok, hlog⟩
    obtain ⟨-, hok⟩ := (updateRoutes_ok_iff ha).1 hok
    obtain ⟨hp, -, hs, -⟩ := forM_perform_ok hok
    obtain ⟨htext, hconv⟩ := changeSteps_passes_iff.1 hp
    rw [hs, hsent adds hadds, ← List.append_assoc] at hlog
    have hmap := List.append_cancel_left (List.append_cancel_right hlog)
    have hlen := congrArg List.length hmap
    rw [List.length_map, List.length_map] at hlen
    exact ⟨⟨htext, filter_eq_of_length hstale hlen⟩, hconv⟩
  · rintro ⟨⟨htext, hfilter⟩, hconv⟩
    obtain ⟨adds, hadds⟩ := exists_forall₂_iff.2 fun g hg => hconv g (mem_addOrder.1 hg)
    obtain ⟨t, ht⟩ := forM_perform_of_passes (s := { s with requests := s.requests + 1 }) hr
      (fun step hm => ⟨changeSteps_ne_dump step hm,
        changeSteps_passes_iff.2 ⟨htext, hconv⟩ step hm⟩) hc
    refine ⟨adds, t, hadds, (updateRoutes_ok_iff ha).2 ⟨hr _, ht⟩, ?_⟩
    obtain ⟨-, -, hs, -⟩ := forM_perform_ok ht
    rw [hs, hsent adds hadds, hfilter, List.append_assoc]

/-- The link 1 has the name `lo`, and the link 2 a given one. -/
def twoLinks (name : Bytes) (index : UInt32) (_ : Nat) : Outcome ErrorKind Bytes :=
  if index = 1 then .ok (namedLink 1 loopback)
  else if index = 2 then .ok (namedLink 2 name)
  else .err (.nix ENODEV)

def twoNames (name : Bytes) (index : UInt32) : Bytes := if index = 1 then loopback else name

/-- An attribute that may be missing. -/
def optionPair (cat : UInt16) (addr : Option Bytes) : List (UInt16 × Bytes) :=
  (addr.map fun a => (cat, a)).toList

/-- The entry of the main table for a route. -/
def tableEntry (protocol : UInt8) (r : RtRoute) : Bytes :=
  kernelMessage RTM_NEWROUTE
    (RtMsg.bytes ⟨AF_INET, r.dst_len, r.src_len, 0, RT_TABLE_MAIN, protocol, r.scope,
      RTN_UNICAST, 0⟩)
    ([(RTA_TABLE, [254, 0, 0, 0])] ++ optionPair RTA_DST r.dest ++
      optionPair (if 0 < r.src_len then RTA_SRC else RTA_PREFSRC) r.source ++
      optionPair RTA_GATEWAY r.gateway ++ [(RTA_OIF, leBytes 4 r.index.toNat)])

/-- It takes off the first entry that has what the request has. -/
def twoLinksKernel (name : Bytes) : RouteKernel where
  refuses _ := none
  links := twoLinks name
  taken table r := table.find? fun m => (extracted m).toRtRoute = r
  made := tableEntry RTPROTO_BOOT

/-- 10.0.0.0/24 on the link 2. -/
def linkRoute : RtRoute := ⟨some [10, 0, 0, 0], none, none, 2, 0, 24, 0⟩

/-- The kernel's own route to that network, a default route over it, and one of the loopback. -/
def ethTable : List Bytes :=
  [tableEntry RTPROTO_KERNEL linkRoute,
    tableEntry RTPROTO_BOOT ⟨some [0, 0, 0, 0], none, some [10, 0, 0, 1], 2, 0, 0, 0⟩,
    tableEntry RTPROTO_BOOT ⟨some [10, 9, 0, 0], none, none, 1, 0, 16, 0⟩]

/-- The name `eth0`. -/
def eth0 : Bytes := [101, 116, 104, 48]

def ethDevices : Converter :=
  { ethConverter with linkIndex := fun name => if name = "eth0" then .ok 2 else .err (.nix ENODEV) }

/-- A route through a gateway, and one without. -/
def ethRequest : List Route :=
  [⟨"", "10.0.0.2", "eth0", "", 0⟩, ⟨"10.2.0.0/16", "", "eth0", "", 0⟩]

theorem twoLinks_named {name : Bytes} (h2 : NamesLink (namedLink 2 name) name)
    (hi : r.index = 1 ∨ r.index = 2) (n : Nat) :
    ∃ reply, twoLinks name r.index n = .ok reply ∧ NamesLink reply (twoNames name r.index) := by
  rcases hi with hi | hi
  · have h1 : NamesLink (namedLink 1 loopback) loopback := ⟨by decide, by decide, by decide⟩
    rw [hi]
    exact ⟨namedLink 1 loopback, rfl, h1⟩
  · rw [hi]
    exact ⟨namedLink 2 name, rfl, h2⟩

theorem twoNames_tells {name : Bytes} (text : String)
    (ht : fromUtf8 (name ++ [0]) = .ok text) (hl : ¬ (contains text "lo" ∨ contains text "::1"))
    (hi : r.index = 1 ∨ r.index = 2) : TellsLoopback (twoNames name) r := by
  rcases hi with hi | hi
  · have hlo : twoNames name r.index = loopback := if_pos hi
    refine ⟨"lo\x00", by rw [hlo]; decide, fun hs => ?_⟩
    exact absurd hlo (of_decide_eq_true hs).2
  · have h2 : twoNames name r.index = name := by
      rw [hi]
      rfl
    exact ⟨text, by rw [h2, ht], fun _ => hl⟩

theorem updateRoutes_eth : Replaces (twoLinksKernel eth0) ethDevices (twoNames eth0)
    (ethTable.map extracted) ethRequest ⟨ethTable, [], 0⟩ := by
  have hi : ∀ r ∈ ethTable.map extracted, r.index = 1 ∨ r.index = 2 := by decide
  apply (updateRoutes_replaces_iff (twoLinksKernel eth0) ethDevices (twoNames eth0)
    (ethTable.map extracted) ethRequest ⟨ethTable, [], 0⟩ (fun _ => rfl) (by decide)
    (fun r hm => twoLinks_named ⟨by decide, by decide, by decide⟩ (hi r hm))
    (Outcome.isOk_iff.1 (by decide))).2
  constructor
  · intro r hm
    exact twoNames_tells "eth0\x00" (by decide) (by decide) (hi r hm)
  · intro g hg
    apply Outcome.isOk_iff.1
    exact (by decide : ∀ g ∈ ethRequest, (rtRouteFrom ethDevices g).isOk = true) g hg

/-- The name `flo0`. -/
def flo0 : Bytes := [102, 108, 111, 48]

def floTable : List Bytes := [tableEntry RTPROTO_BOOT linkRoute]

/-- A route that leaves through `flo0` stays. -/
theorem updateRoutes_flo : ¬ ∀ (K : RouteKernel) (cv : Converter) (names : UInt32 → Bytes)
    (rs : List DumpedRoute) (rt : List Route) (s : RouteSocket), (∀ n, K.refuses n = none) →
    getAllRoutes (.ok s.table) = .ok rs →
    (∀ r ∈ rs, ∀ n, ∃ reply, K.links r.index n = .ok reply ∧ NamesLink reply (names r.index)) →
    (∃ table, (changes cv (changeSteps K rs rt)).foldlM K.change s.table = .ok table) →
    Replaces K cv names rs rt s := by
  intro h
  have hi : ∀ r ∈ floTable.map extracted, r.index = 1 ∨ r.index = 2 := by decide
  obtain ⟨adds, t, -, hok, hlog⟩ := h (twoLinksKernel flo0) ethDevices (twoNames flo0)
    (floTable.map extracted) [] ⟨floTable, [], 0⟩ (fun _ => rfl) (by decide)
    (fun r hm => twoLinks_named ⟨by decide, by decide, by decide⟩ (hi r hm))
    (Outcome.isOk_iff.1 (by decide))
  have hsent : (updateRoutes (twoLinksKernel flo0) ethDevices [] ⟨floTable, [], 0⟩).2.sent.length =
      0 := by decide
  have hstale : ((floTable.map extracted).filter (·.stale (twoNames flo0))).length = 1 := by decide
  have hlen := congrArg List.length hlog
  rw [hok] at hsent
  rw [List.length_append, List.length_append, List.length_map, hstale, hsent] at hlen
  omega

end KataAgent
