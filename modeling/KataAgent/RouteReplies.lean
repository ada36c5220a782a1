import KataAgent.RouteUpdates

namespace KataAgent
open Fallible Records
set_option autoImplicit true

variable {ipv6 : Bytes → String} {links : UInt32 → Nat → Outcome ErrorKind Bytes}
  {K : RouteKernel} {cv : Converter} {s t u : RouteSocket} {table : List Bytes}
  {before after : List RouteStep} {q : RouteStep} {rt : List Route}

/-- The handler: where the update fails, it replies with the routes that were listed before. -/
def updateRoutesHandler (ipv6 : Bytes → String) (K : RouteKernel) (cv : Converter)
    (rs : List Route) : Act RouteSocket ErrorKind (List Route) := fun s =>
  match listRoutes ipv6 K.links (.ok s.table) with
  | .err _ => (.err (.msg "update routes"), s)
  | .panic => (.panic, s)
  | .ok crs =>
    match updateRoutes K cv rs s with
    | (.ok value, t) => (.ok value, t)
    | (.err _, t) => (.ok crs, t)
    | (.panic, t) => (.panic, t)

/-- The reply has the routes that are in the table afterwards. -/
def RepliesTable (ipv6 : Bytes → String) (K : RouteKernel) (cv : Converter) (rs : List Route)
    (s : RouteSocket) : Prop :=
  ∃ reply t now, updateRoutesHandler ipv6 K cv rs s = (.ok reply, t) ∧
    listRoutes ipv6 K.links (.ok t.table) = .ok now ∧ reply.Perm now

def RouteStep.deletion : RouteStep → Option RtRoute
  | .delete r => some r
  | _ => none

def RouteStep.addition (cv : Converter) : RouteStep → Option RtRoute
  | .add r =>
    match rtRouteFrom cv r with
    | .ok r => some r
    | _ => none
  | _ => none

/-- The routes that the steps delete. -/
def deletions (steps : List RouteStep) : List RtRoute := steps.filterMap RouteStep.deletion

/-- The routes that the steps add. -/
def additions (cv : Converter) (steps : List RouteStep) : List RtRoute :=
  steps.filterMap (RouteStep.addition cv)

/-- What requests for deletion take off the table, one after the other. -/
def RouteKernel.gone (K : RouteKernel) : List Bytes → List RtRoute → List Bytes
  | _, [] => []
  | table, r :: rs =>
    match K.taken table r with
    | some m => m :: K.gone (table.erase m) rs
    | none => []

/-- What the steps took off the table is listed like what they put there. -/
def Recreates (ipv6 : Bytes → String) (K : RouteKernel) (cv : Converter) (table : List Bytes)
    (steps : List RouteStep) : Prop :=
  ∃ gone made, listRoutes ipv6 K.links (.ok (K.gone table (deletions steps))) = .ok gone ∧
    listRoutes ipv6 K.links (.ok ((additions cv steps).map K.made)) = .ok made ∧ gone.Perm made

theorem readRoutes_eq_mapM {read : Bytes → List (Option Bytes) → Outcome ErrorKind α}
    {rv : List Bytes} :
    readRoutes read rv =
      rv.mapM (fun nlh => readRoutes read [nlh]) >>= fun rs => .ok rs.flatten := by
  induction rv with
  | nil => rfl
  | cons nlh rv ih =>
    rw [List.mapM_cons, readRoutes, ih, readRoutes]
    cases mainAttrs nlh with
    | err e => rfl
    | panic => rfl
    | ok attrs =>
      cases attrs with
      | none => cases rv.mapM fun nlh => readRoutes read [nlh] <;> rfl
      | some attrs =>
        simp only [Outcome.ok_bind]
        cases read nlh attrs with
        | err e => rfl
        | panic => rfl
        | ok rte => cases rv.mapM fun nlh => readRoutes read [nlh] <;> rfl

theorem listRoutes_eq_mapM {rv : List Bytes} (h : Family.route.FormedDump rv) :
    listRoutes ipv6 links (.ok rv) = (rv.filter Family.route.reads).mapM
      (fun nlh => readRoutes (listedRoute ipv6 links) [nlh]) >>= fun rs => .ok rs.flatten := by
  rw [← readRoutes_eq_mapM, ← Family.messages_eq h]
  rfl

/-- In another order the same routes are listed in another order. -/
theorem listRoutes_perm {rv rv' : List Bytes} {rs : List Route} (hf : Family.route.FormedDump rv)
    (hp : rv.Perm rv') (h : listRoutes ipv6 links (.ok rv) = .ok rs) :
    ∃ rs', listRoutes ipv6 links (.ok rv') = .ok rs' ∧ rs.Perm rs' := by
  have hf' : Family.route.FormedDump rv' := fun nlh hm => hf nlh (hp.mem_iff.2 hm)
  rw [listRoutes_eq_mapM hf, Outcome.bind_eq_ok] at h
  obtain ⟨ls, hl, ⟨⟩⟩ := h
  obtain ⟨ls', hl', hls⟩ := Outcome.mapM_perm (hp.filter _) hl
  refine ⟨ls'.flatten, ?_, hls.flatten⟩
  rw [listRoutes_eq_mapM hf', hl']
  rfl

theorem listRoutes_append {rv rv' : List Bytes} {rs : List Route}
    (hf : Family.route.FormedDump (rv ++ rv')) : listRoutes ipv6 links (.ok (rv ++ rv')) = .ok rs ↔
      ∃ as bs, listRoutes ipv6 links (.ok rv) = .ok as ∧ listRoutes ipv6 links (.ok rv') = .ok bs ∧
        rs = as ++ bs := by
  obtain ⟨hf₁, hf₂⟩ := List.forall_mem_append.1 hf
  rw [listRoutes_eq_mapM hf, listRoutes_eq_mapM hf₁, listRoutes_eq_mapM hf₂, List.filter_append,
    List.mapM_append]
  cases (rv.filter Family.route.reads).mapM
      fun nlh => readRoutes (listedRoute ipv6 links) [nlh] with
  | err e => exact iff_of_false nofun fun ⟨_, _, h, _⟩ => nomatch h
  | panic => exact iff_of_false nofun fun ⟨_, _, h, _⟩ => nomatch h
  | ok as =>
    cases (rv'.filter Family.route.reads).mapM
        fun nlh => readRoutes (listedRoute ipv6 links) [nlh] with
    | err e => exact iff_of_false nofun fun ⟨_, _, _, h, _⟩ => nomatch h
    | panic => exact iff_of_false nofun fun ⟨_, _, _, h, _⟩ => nomatch h
    | ok bs => simp [eq_comm]

/-- A table of which a part was taken off, and to which something was added, is listed as before
exactly where both are listed alike. -/
theorem listRoutes_replaced {gone rest made table table' : List Bytes} {crs : List Route}
    (hf : Family.route.FormedDump table) (hm : Family.route.FormedDump made)
    (ht : table.Perm (gone ++ rest)) (ht' : table' = rest ++ made)
    (hl : listRoutes ipv6 links (.ok table) = .ok crs) :
    (∃ now, listRoutes ipv6 links (.ok table') = .ok now ∧ crs.Perm now) ↔
      ∃ gs ms, listRoutes ipv6 links (.ok gone) = .ok gs ∧
        listRoutes ipv6 links (.ok made) = .ok ms ∧ gs.Perm ms := by
  have hfg : Family.route.FormedDump (gone ++ rest) := fun nlh hn => hf nlh (ht.mem_iff.2 hn)
  have hfr := (List.forall_mem_append.1 hfg).2
  have hfm : Family.route.FormedDump (rest ++ made) := List.forall_mem_append.2 ⟨hfr, hm⟩
  obtain ⟨crs', hc, hp⟩ := listRoutes_perm hf ht hl
  obtain ⟨gs, os, hgs, hos, rfl⟩ := (listRoutes_append hfg).1 hc
  rw [ht']
  constructor
  · rintro ⟨now, hn, hnow⟩
    obtain ⟨os', ms, hos', hms, rfl⟩ := (listRoutes_append hfm).1 hn
    cases hos.symm.trans hos'
    refine ⟨gs, ms, hgs, hms, ?_⟩
    have hboth := (hp.symm.trans hnow).trans List.perm_append_comm
    exact (List.perm_append_right_iff os).1 hboth
  · rintro ⟨gs', ms, hgs', hms, hperm⟩
    cases hgs.symm.trans hgs'
    refine ⟨os ++ ms, (listRoutes_append hfm).2 ⟨os, ms, hos, hms, rfl⟩, ?_⟩
    exact (hp.trans (hperm.append_right os)).trans List.perm_append_comm

theorem foldlM_deletes {rs : List RtRoute} {table'  : List Bytes}
    (hm : ∀ table r m, K.taken table r = some m → m ∈ table)
    (h : (rs.map Builder.deleteOneRoute).foldlM K.change table = .ok table') :
    table.Perm (K.gone table rs ++ table') := by
  induction rs generalizing table with
  | nil =>
    cases h
    exact .refl _
  | cons r rs ih =>
    obtain ⟨rest, hc, h⟩ := Outcome.bind_eq_ok.1 h
    rw [RouteKernel.change] at hc
    rw [RouteKernel.gone]
    cases ht : K.taken table r with
    | none =>
      rw [ht] at hc
      cases hc
    | some m =>
      rw [ht] at hc
      cases hc
      exact (List.perm_cons_erase (hm table r m ht)).trans ((ih h).cons m)

theorem foldlM_adds {rs : List RtRoute} :
    (rs.map Builder.addOneRoute).foldlM K.change table = .ok (table ++ rs.map K.made) := by
  induction rs generalizing table with
  | nil => exact congrArg Outcome.ok (List.append_nil table).symm
  | cons r rs ih =>
    change (rs.map Builder.addOneRoute).foldlM K.change (table ++ [K.made r]) = _
    rw [ih, List.append_assoc]
    rfl

theorem deletions_cons {steps : List RouteStep} :
    deletions (q :: steps) = q.deletion.toList ++ deletions steps := filterMap_cons_toList

theorem additions_cons {steps : List RouteStep} :
    additions cv (q :: steps) = (q.addition cv).toList ++ additions cv steps :=
  filterMap_cons_toList

theorem deletions_append : deletions (before ++ after) = deletions before ++ deletions after :=
  List.filterMap_append

theorem additions_append :
    additions cv (before ++ after) = additions cv before ++ additions cv after :=
  List.filterMap_append

theorem changes_of_no_additions (cv : Converter) {steps : List RouteStep}
    (h : ∀ g, .add g ∉ steps) :
    changes cv steps = (deletions steps).map .deleteOneRoute ∧ additions cv steps = [] := by
  induction steps with
  | nil => exact ⟨rfl, rfl⟩
  | cons step steps ih =>
    obtain ⟨hc, ha⟩ := ih fun g hg => h g (.tail _ hg)
    rw [changes_cons, hc, deletions_cons, additions_cons, ha]
    cases step with
    | dump => exact ⟨rfl, rfl⟩
    | name index => exact ⟨rfl, rfl⟩
    | delete r => exact ⟨rfl, rfl⟩
    | add g => exact absurd List.mem_cons_self (h g)

theorem changes_of_additions (cv : Converter) (gs : List Route) : changes cv (gs.map .add) =
    (additions cv (gs.map .add)).map .addOneRoute ∧ deletions (gs.map .add) = [] := by
  induction gs with
  | nil => exact ⟨rfl, rfl⟩
  | cons g gs ih =>
    obtain ⟨hc, hd⟩ := ih
    rw [List.map_cons, changes_cons, hc, deletions_cons, additions_cons, hd, RouteStep.builder,
      RouteStep.addition]
    cases rtRouteFrom cv g with
    | ok r => exact ⟨rfl, rfl⟩
    | err e => exact ⟨rfl, rfl⟩
    | panic => exact ⟨rfl, rfl⟩

/-- The deletions of an update come before its additions. -/
theorem routeSteps_eq (K : RouteKernel) (table : List Bytes) (rt : List Route) : ∃ steps,
    ∃ gs : List Route, routeSteps K table rt = steps ++ gs.map .add ∧ ∀ g, .add g ∉ steps := by
  rw [routeSteps]
  cases getAllRoutes (.ok table) with
  | err e => exact ⟨[.dump], [], rfl, fun g hg => by cases List.mem_singleton.1 hg⟩
  | panic => exact ⟨[.dump], [], rfl, fun g hg => by cases List.mem_singleton.1 hg⟩
  | ok rs =>
    refine ⟨.dump :: (rs.map (deleteSteps K)).flatten, addOrder rt, rfl, fun g hg => ?_⟩
    rcases List.mem_cons.1 hg with hg | hg
    · cases hg
    · obtain ⟨ds, hds, hg⟩ := List.mem_flatten.1 hg
      obtain ⟨r, -, rfl⟩ := List.mem_map.1 hds
      rcases List.mem_cons.1 hg with hg | hg
      · cases hg
      · split at hg
        · cases List.mem_singleton.1 hg
        · cases hg

/-- So do those of its first requests. -/
theorem changes_before (h : routeSteps K table rt = before ++ after) : changes cv before =
    (deletions before).map .deleteOneRoute ++ (additions cv before).map .addOneRoute := by
  obtain ⟨steps, gs, he, hn⟩ := routeSteps_eq K table rt
  have htake : before = steps.take before.length ++
      (gs.take (before.length - steps.length)).map .add := by
    rw [List.map_take, ← List.take_append, ← he, h, List.take_left]
  obtain ⟨hc, ha⟩ := changes_of_no_additions cv (fun g (hg : _ ∈ steps.take before.length) =>
    hn g (List.mem_of_mem_take hg))
  obtain ⟨hc', hd⟩ := changes_of_additions cv (gs.take (before.length - steps.length))
  rw [htake, changes_append, hc, hc', deletions_append, additions_append, ha, hd, List.append_nil,
    List.nil_append]

/-- A step that fails leaves the table as it is. -/
theorem RouteStep.perform_err {e : ErrorKind} (h : q.perform K cv t = (.err e, u)) :
    u.table = t.table := by
  have hask {α : Type} {read : List Bytes → Outcome ErrorKind α}
      (ha : K.ask read t = (.err e, u)) : u.table = t.table := by
    have hu : (K.ask read t).2 = { t with requests := t.requests + 1 } := Act.ask_snd
    rw [ha] at hu
    rw [show u = { t with requests := t.requests + 1 } from hu]
  have htalk {b : Builder} (ht : K.talk b t = (.err e, u)) : u.table = t.table := by
    rcases Act.bind_eq_err.1 ht with ha | ⟨table, v, -, hm⟩
    · exact hask ha
    · cases hm
  cases q with
  | dump =>
    rcases Act.bind_eq_err.1 h with ha | ⟨rs, v, -, hp⟩
    · exact hask ha
    · cases hp
  | name index =>
    rcases Act.bind_eq_err.1 h with ha | ⟨name, v, -, hp⟩
    · exact hask ha
    · cases hp
  | delete r => exact htalk h
  | add r =>
    rcases Act.bind_eq_err.1 h with hl | ⟨rt, v, hl, ht⟩
    · cases (Prod.ext_iff.1 hl).2
      rfl
    · cases (Prod.ext_iff.1 hl).2
      exact htalk ht

/-- Where the update fails at one of its requests, the handler replies with the routes of the table
exactly if the changes made before that request put back what they took off. -/
theorem updateRoutesHandler_iff (ipv6 : Bytes → String) (K : RouteKernel) (cv : Converter)
    (rt : List Route) (s t u : RouteSocket) (crs : List Route) (before after : List RouteStep)
    (q : RouteStep) (e : ErrorKind)
    (hm : ∀ table r m, K.taken table r = some m → m ∈ table)
    (hmade : Family.route.FormedDump ((additions cv before).map K.made))
    (hf : Family.route.FormedDump s.table) (hl : listRoutes ipv6 K.links (.ok s.table) = .ok crs)
    (hs : routeSteps K s.table rt = before ++ q :: after)
    (hb : before.forM (RouteStep.perform K cv) s = (.ok (), t))
    (hq : q.perform K cv t = (.err e, u)) :
    RepliesTable ipv6 K cv rt s ↔ Recreates ipv6 K cv s.table before := by
  obtain ⟨-, htable, -, -⟩ := forM_perform_ok hb
  rw [changes_before hs, List.foldlM_append] at htable
  obtain ⟨rest, hd, ha⟩ := Outcome.bind_eq_ok.1 htable
  rw [foldlM_adds] at ha
  have hrun : updateRoutes K cv rt s = (.err e, u) := by
    rw [updateRoutes_eq, hs, Act.forM_append]
    apply Act.bind_err
    rw [Act.bind_ok hb]
    exact Act.bind_err hq
  have hreply : updateRoutesHandler ipv6 K cv rt s = (.ok crs, u) := by
    rw [updateRoutesHandler, hl]
    dsimp only
    rw [hrun]
  have hu : u.table = rest ++ (additions cv before).map K.made := by
    rw [RouteStep.perform_err hq]
    exact (Outcome.ok.inj ha).symm
  rw [Recreates, ← listRoutes_replaced hf hmade (foldlM_deletes hm hd) hu hl]
  constructor
  · rintro ⟨reply, t', now, hr, hn, hp⟩
    cases hreply.symm.trans hr
    exact ⟨now, hn, hp⟩
  · rintro ⟨now, hn, hp⟩
    exact ⟨crs, u, now, hreply, hn, hp⟩

/-- The kernel of `eth0` that refuses one request, by its number. -/
def refusingKernel (n : Nat) : RouteKernel :=
  { twoLinksKernel eth0 with refuses := fun i => if i = n then some (.nix .EBUSY) else none }

theorem refusingKernel_taken {n : Nat} {r : RtRoute} {m : Bytes}
    (h : (refusingKernel n).taken table r = some m) : m ∈ table := List.mem_of_find?_eq_some h

theorem ethTable_formed : Family.route.FormedDump ethTable := by
  intro nlh hm _
  exact (by decide : ∀ nlh ∈ ethTable, Family.route.Formed nlh) nlh hm

def ethListing : List Route :=
  [⟨"10.0.0.0/24", "", "eth0\x00", "", 0⟩, ⟨"0.0.0.0", "10.0.0.1", "eth0\x00", "", 0⟩,
    ⟨"10.9.0.0/16", "", "lo\x00", "", 0⟩]

/-- The first deletion is refused. -/
theorem updateRoutesHandler_refused :
    RepliesTable (fun _ => "") (refusingKernel 3) ethDevices ethRequest ⟨ethTable, [], 0⟩ := by
  have hs : routeSteps (refusingKernel 3) ethTable ethRequest = [.dump, .name 2, .name 2] ++
      .delete ⟨some [0, 0, 0, 0], none, some [10, 0, 0, 1], 2, 0, 0, 0⟩ ::
        [.name 1, .add ⟨"10.2.0.0/16", "", "eth0", "", 0⟩,
          .add ⟨"", "10.0.0.2", "eth0", "", 0⟩] := by
    decide
  exact (updateRoutesHandler_iff (fun _ => "") (refusingKernel 3) ethDevices ethRequest
    ⟨ethTable, [], 0⟩ ⟨ethTable, [], 3⟩ ⟨ethTable, [], 4⟩ ethListing _ _ _ (.nix .EBUSY)
    (fun _ _ _ => refusingKernel_taken) (List.forall_mem_nil _) ethTable_formed (by decide) hs
    (by decide) (by decide)).2 ⟨[], [], rfl, rfl, .nil⟩

/-- The default route is deleted, and the first of the new routes is refused. -/
theorem updateRoutesHandler_lost : ¬ ∀ (ipv6 : Bytes → String) (K : RouteKernel) (cv : Converter)
    (rt : List Route) (s t u : RouteSocket) (crs : List Route) (before after : List RouteStep)
    (q : RouteStep) (e : ErrorKind), (∀ table r m, K.taken table r = some m → m ∈ table) →
    Family.route.FormedDump ((additions cv before).map K.made) →
    Family.route.FormedDump s.table → listRoutes ipv6 K.links (.ok s.table) = .ok crs →
    routeSteps K s.table rt = before ++ q :: after →
    before.forM (RouteStep.perform K cv) s = (.ok (), t) → q.perform K cv t = (.err e, u) →
    RepliesTable ipv6 K cv rt s := by
  intro h
  let default : RtRoute := ⟨some [0, 0, 0, 0], none, some [10, 0, 0, 1], 2, 0, 0, 0⟩
  let table := ethTable.erase (tableEntry RTPROTO_BOOT default)
  have hs : routeSteps (refusingKernel 5) ethTable ethRequest = [.dump, .name 2, .name 2,
      .delete default, .name 1] ++ .add ⟨"10.2.0.0/16", "", "eth0", "", 0⟩ ::
        [.add ⟨"", "10.0.0.2", "eth0", "", 0⟩] := by decide
  obtain ⟨reply, t, now, hx, hn, hp⟩ := h (fun _ => "") (refusingKernel 5) ethDevices ethRequest
    ⟨ethTable, [], 0⟩ ⟨table, [.deleteOneRoute default], 5⟩ ⟨table, [.deleteOneRoute default], 6⟩
    ethListing _ _ _ (.nix .EBUSY) (fun _ _ _ => refusingKernel_taken) (List.forall_mem_nil _)
    ethTable_formed (by decide) hs (by decide) (by decide)
  have hrun : updateRoutesHandler (fun _ => "") (refusingKernel 5) ethDevices ethRequest
      ⟨ethTable, [], 0⟩ = (.ok ethListing, ⟨table, [.deleteOneRoute default], 6⟩) := by decide
  cases hrun.symm.trans hx
  have hlost : listRoutes (fun _ => "") (refusingKernel 5).links (.ok table) =
      .ok [⟨"10.0.0.0/24", "", "eth0\x00", "", 0⟩, ⟨"10.9.0.0/16", "", "lo\x00", "", 0⟩] := by
    decide
  cases hlost.symm.trans hn
  exact absurd hp.length_eq (by decide)

end KataAgent
