import IpRouter.RouteManager.Adding
import IpRouter.RouteManager.Coherence
import IpRouter.RouteManager.Sweeping
import IpRouter.RouteService.Batches
import IpRouter.RouteService.Deleting
import Mathlib.Data.Set.Card

/-!
# A removal by filter, alone

`route_delete` goes through the entries that match its filter and removes the route
of each, unless it has removed that route already for another key. When nothing
else happens, what it has done so far is told by its attempts (`verdicts`): an
address is gone from all keys once an attempt for it has succeeded, and no attempt
follows that one. `Removing` is this invariant, and `Removing.step` one entry.

When every call succeeds, one attempt for each address is made and all entries with
a matched address are gone (`delete_by_filter`). When calls fail, an entry is
reported by the attempt made for it, so what the response says is true unless a
failed attempt is followed by one that succeeds (`delete_truthful_iff`).
-/

namespace IpRouter.RouteService

open Theory RouteManager

/-! ### The entries that match -/

/-- The entries that match a filter, in the order `route_delete` goes through them. -/
def matchingOf (key destination : Option Bytes) (routes : List RouteEntry) :
    List (Bytes × RouteTarget) :=
  (routes.flatMap fun group => group.targets.map (group.key, ·)).filter fun entry =>
    wanted key entry.1 && wanted destination entry.2.ip

/-- The entries of an index that match the filter of a request. -/
def matching (request : HttpRequest) (m : Routes) : List (Bytes × RouteTarget) :=
  matchingOf (getRouteKey request) (parameter request (text "ip") (text "target")) (list m)

/-- A target as `list` shows it. -/
def shown (ip : Bytes) (metadata : RouteMetadata) : RouteTarget :=
  ⟨ip, metadata.gateway, metadata.ttl, metadata.expiresAt⟩

theorem mem_matching {request : HttpRequest} {m : Routes} {key : Bytes} {target : RouteTarget} :
    (key, target) ∈ matching request m ↔
      (∃ metadata, m.lookup key target.ip = some metadata ∧ target = shown target.ip metadata) ∧
      wanted (getRouteKey request) key = true ∧
      wanted (parameter request (text "ip") (text "target")) target.ip = true := by
  simp only [matching, matchingOf, List.mem_filter, Bool.and_eq_true]
  refine and_congr_left fun _ => ?_
  simp only [list, List.mem_flatMap, List.mem_map, Routes.lookup, Option.bind_eq_some_iff,
    exists_exists_and_eq_and]
  constructor
  · rintro ⟨⟨key', group⟩, hg, ⟨⟨ip, metadata⟩, ht, heq⟩⟩
    obtain ⟨rfl, rfl⟩ := Prod.mk.inj heq
    exact ⟨metadata, ⟨group, OrdMap.mem_entries_iff.mp hg, OrdMap.mem_entries_iff.mp ht⟩, rfl⟩
  · rintro ⟨metadata, ⟨group, hg, ht⟩, heq⟩
    refine ⟨(key, group), OrdMap.mem_entries_iff.mpr hg, (target.ip, metadata),
      OrdMap.mem_entries_iff.mpr ht, ?_⟩
    exact congrArg (Prod.mk key) heq.symm

/-- An entry that matches is a reference. -/
theorem refs_of_matching {request : HttpRequest} {m : Routes} {entry : Bytes × RouteTarget}
    (hentry : entry ∈ matching request m) : m.refs entry.1 entry.2.ip = some entry.2.gateway := by
  obtain ⟨⟨metadata, hl, heq⟩, -⟩ := mem_matching.mp hentry
  exact Routes.refs_eq_some.mpr ⟨metadata, hl, by rw [heq]; rfl⟩

/-- No entry matches twice. -/
theorem nodup_matching (request : HttpRequest) (m : Routes) :
    ((matching request m).map fun entry => (entry.1, entry.2.ip)).Nodup := by
  refine List.Nodup.sublist (List.Sublist.map _ List.filter_sublist) ?_
  rw [List.map_flatMap]
  refine List.nodup_flatMap.mpr ⟨fun group hgroup => ?_, ?_⟩
  · obtain ⟨⟨key, targets⟩, -, rfl⟩ := List.mem_map.mp hgroup
    simp only [List.map_map]
    change (targets.entries.map ((key, ·) ∘ Prod.fst)).Nodup
    rw [← List.map_map]
    exact (OrdMap.nodup_keys targets).map fun _ _ h => (Prod.mk.inj h).2
  · -- different groups have different keys
    rw [list, List.pairwise_map]
    refine (List.pairwise_map.mp (OrdMap.nodup_keys m)).imp fun {group group'} hne => ?_
    simp only [Function.onFun, List.disjoint_left, List.mem_map]
    rintro pair ⟨_, ⟨_, _, rfl⟩, rfl⟩ ⟨_, ⟨_, _, rfl⟩, heq⟩
    exact hne (Prod.mk.inj heq).1.symm

/-- **The loops of `route_delete`** are one loop over the entries that match. -/
theorem loop_deleteGroup (key destination : Option Bytes) (routes : List RouteEntry)
    (d : Deletion) :
    Prog.loop (deleteGroup key destination) routes d =
      Prog.loop (fun d entry => deleteTarget destination entry.1 d entry.2)
        (matchingOf key destination routes) d := by
  let visit (d : Deletion) (entry : Bytes × RouteTarget) : Handler Deletion :=
    if ¬ wanted key entry.1 then pure d else deleteTarget destination entry.1 d entry.2
  have hskip : ∀ (d : Deletion) (entry : Bytes × RouteTarget),
      (wanted key entry.1 && wanted destination entry.2.ip) = false →
      visit d entry = pure d := by
    intro d entry hnot
    simp only [visit, deleteTarget]
    split_ifs with hkey hdestination
    · simp [hkey, hdestination] at hnot
    · rfl
    · rfl
  have hgroup : ∀ (d : Deletion) (group : RouteEntry),
      Prog.loop visit (group.targets.map (group.key, ·)) d =
          deleteGroup key destination d group := by
    intro d group
    rw [Prog.loop_map, deleteGroup]
    by_cases hkey : wanted key group.key = true
    · simp only [visit, hkey, not_true_eq_false, if_false]
    · have hnone : ∀ d target, (fun _ : RouteTarget => false) target = false →
          visit d (group.key, target) = pure d := by
        intro d target _
        exact if_pos hkey
      rw [if_pos hkey, ← Prog.loop_filter _ hnone, List.filter_false]
      rfl
  have hmatching : ∀ entry ∈ matchingOf key destination routes, ∀ d, visit d entry =
      deleteTarget destination entry.1 d entry.2 := by
    intro entry hentry d
    have hwanted := (List.mem_filter.mp hentry).2
    simp only [Bool.and_eq_true] at hwanted
    simp only [visit, hwanted.1, not_true_eq_false, if_false]
  rw [← Prog.loop_congr hmatching, matchingOf, Prog.loop_filter _ hskip, Prog.loop_flatMap]
  exact (Prog.loop_congr (fun group _ d => hgroup d group) d).symm

/-! ### What a request does on the host -/

variable [Platform] {request : HttpRequest} {m : Memory} {d : Deletion} {key : Bytes}
  {target : RouteTarget}

/-- The filter of a removal that is not refused: a key, an address, or both, and valid. -/
structure ValidFilter (request : HttpRequest) : Prop where
  /-- There is one. -/
  given : given (getRouteKey request) = true ∨
    given (parameter request (text "ip") (text "target")) = true
  /-- The key. -/
  key : RouteService.given (getRouteKey request) = true → validRouteKey (getRouteKey request) = true
  /-- The address. -/
  destination : RouteService.given (parameter request (text "ip") (text "target")) = true →
    validIpv4 (parameter request (text "ip") (text "target")) = true

/-- What `route_delete` does at an entry that matches. -/
def visit (r : Memory × Deletion) (entry : Bytes × RouteTarget) : HostProg (Memory × Deletion) :=
  match r.2.deletedSystemRoutes.find (routeId entry.2.ip entry.2.gateway) with
  | some _ => return (r.1, r.2.note entry.1 entry.2 (.ok ()))
  | none => do
    let result ← remove r.1.installedRoutes entry.1 entry.2.ip entry.2.gateway
    return ({ r.1 with installedRoutes := result.1 }, r.2.note entry.1 entry.2 result.2)

theorem serve_deleteTarget {destination : Option Bytes}
    (hwanted : wanted destination target.ip = true) :
    serve (deleteTarget destination key d target) m = visit (m, d) (key, target) := by
  rw [deleteTarget, if_neg (not_not.mpr hwanted), visit]
  cases hnoted : d.deletedSystemRoutes.find (routeId target.ip target.gateway) with
  | some u => rfl
  | none =>
    change (remove m.installedRoutes key target.ip target.gateway >>= fun result =>
      pure (({ m with installedRoutes := result.1 } : Memory), result.2)) >>=
        (fun r => pure (r.1, d.note key target r.2)) = _
    rw [bind_assoc]
    rfl

/-- **What `route_delete` does** with a valid filter: it visits the entries that match. -/
theorem serve_routeDelete (hvalid : ValidFilter request) :
    serve (routeDelete request) m = Prog.loop visit (matching request m.installedRoutes)
      (m, ⟨0, 0, OrdMap.empty, []⟩) >>=
      fun r => pure (r.1, r.2.response) := by
  have hsome : ¬ (¬ given (getRouteKey request) = true ∧
      ¬ given (parameter request (text "ip") (text "target")) = true) :=
        fun h => hvalid.given.elim h.1 h.2
  have hkey : ¬ (given (getRouteKey request) = true ∧
      ¬ validRouteKey (getRouteKey request) = true) :=
    fun h => h.2 (hvalid.key h.1)
  have hdestination : ¬ (given (parameter request (text "ip") (text "target")) = true ∧
      ¬ validIpv4 (parameter request (text "ip") (text "target")) = true) :=
        fun h => h.2 (hvalid.destination h.1)
  simp only [routeDelete, if_neg hsome, if_neg hkey, if_neg hdestination]
  change serve (Prog.loop (deleteGroup _ _) (list m.installedRoutes) _ >>= _) m = _
  rw [loop_deleteGroup, serve_bind]
  have hloop : serve (Prog.loop (fun d entry =>
      deleteTarget (parameter request (text "ip") (text "target")) entry.1 d entry.2)
      (matching request m.installedRoutes) ⟨0, 0, OrdMap.empty, []⟩) m =
      Prog.loop visit (matching request m.installedRoutes) (m, ⟨0, 0, OrdMap.empty, []⟩) := by
    rw [serve, Prog.interp_loop]
    refine Prog.loop_congr (fun entry hentry r => serve_deleteTarget ?_) _
    exact (mem_matching.mp hentry).2.2
  rw [← hloop]
  rfl

/-! ### Attempts -/

/-- How the attempts to remove an address went: an attempt is a call that deletes the system route,
with the save that follows if the route was deleted. -/
def verdicts : List HostEvent → List (Bytes × Bool)
  | [] => []
  | ⟨.deleteSystemRoute ip _, .error _⟩ :: es => (ip, false) :: verdicts es
  | ⟨.deleteSystemRoute ip _, .ok _⟩ :: ⟨.replaceRoutes _, none⟩ :: es => (ip, true) :: verdicts es
  | ⟨.deleteSystemRoute ip _, .ok _⟩ :: ⟨.replaceRoutes _, some _⟩ :: es =>
    (ip, false) :: verdicts es
  | _ :: es => verdicts es

/-- An attempt to remove `ip`: its calls, what it leaves, and whether it succeeded. -/
structure Attempt (m : Routes) (ip gateway : Bytes) (h : Host) (es : List HostEvent) (m' : Routes)
    (ok : Bool) (h' : Host) :
    Prop where
  /-- Its calls are one attempt. -/
  verdict : ∀ rest, verdicts (es ++ rest) = (ip, ok) :: verdicts rest
  /-- They delete one system route. -/
  calls : ∀ ip', es.countP (deletes ip') = if ip' = ip then 1 else 0
  /-- If it succeeds, nothing refers to the address. -/
  done : ok = true → m' = m.forget ip gateway ∧
    h' = { h with routesFile := some (encodeRoutes m'), kernel := Function.update h.kernel ip none }
  /-- If it fails, index and database are what they were. -/
  failed : ok = false → m' = m ∧ h'.routesFile = h.routesFile

omit [Platform] in
theorem attempt_of_delete {m : Routes} {ip gateway : Bytes} {h h' : Host} {es : List HostEvent}
    {r : Result} (ho : DeleteOutcome Host.Answers m ip gateway h es r h') :
    Attempt m ip gateway h es r.1 r.2.isOk h' := by
  have hone : ∀ ip', (if decide (ip = ip') = true then 1 else 0) = if ip' = ip then 1 else 0 := by
    exact fun ip' => if_congr (decide_eq_true_iff.trans eq_comm) rfl rfl
  cases ho with
  | refused route =>
    obtain rfl := route
    refine ⟨fun rest => rfl, fun ip' => ?_, fun h => (by cases h), fun _ => ⟨rfl, rfl⟩⟩
    rw [List.countP_singleton]
    exact hone ip'
  | removed route save =>
    obtain ⟨-, rfl⟩ := route
    obtain rfl := save
    refine ⟨fun rest => rfl, fun ip' => ?_, fun _ => ⟨rfl, rfl⟩, fun h => (by cases h)⟩
    rw [List.countP_cons]
    exact (Nat.zero_add _).trans (hone ip')
  | @restored _ _ _ reply _ _ _ route save readd =>
    obtain ⟨-, rfl⟩ := route
    obtain rfl := save
    refine ⟨fun rest => rfl, fun ip' => ?_, fun h => (by cases h), fun _ => ⟨rfl, ?_⟩⟩
    · rw [List.countP_cons]
      exact (Nat.zero_add _).trans (hone ip')
    · cases reply <;> obtain rfl := readd <;> rfl

/-! ### The middle of a removal -/

/-- **The middle of a removal**: of the entries that match, `entries` were visited, with the calls
`es`; memory and host were `m₀` and `h₀`, and the handler and the host are at `r` and `h`. -/
structure Removing (request : HttpRequest) (m₀ : Memory) (h₀ : Host)
    (entries : List (Bytes × RouteTarget)) (es : List HostEvent) (r : Memory × Deletion)
    (h : Host) : Prop where
  /-- The calls end where an attempt ends. -/
  split : ∀ rest, verdicts (es ++ rest) = verdicts es ++ verdicts rest
  /-- The global route is what it was. -/
  settings : r.1 = { m₀ with installedRoutes := r.1.installedRoutes }
  /-- An address is gone from all keys once an attempt for it has succeeded. -/
  lookup : ∀ key ip, r.1.installedRoutes.lookup key ip =
    if (ip, true) ∈ verdicts es then none else m₀.installedRoutes.lookup key ip
  /-- No group is empty. -/
  noEmpty : r.1.installedRoutes.NoEmpty
  /-- The handler knows which addresses are gone. -/
  noted : ∀ entry ∈ matching request m₀.installedRoutes,
    r.2.deletedSystemRoutes.find (routeId entry.2.ip entry.2.gateway) ≠ none ↔
    (entry.2.ip, true) ∈ verdicts es
  /-- It counts the entries. -/
  matched : r.2.matched = entries.length
  /-- It counts those it reports as deleted. -/
  succeeded : r.2.succeeded = r.2.results.countP (·.success)
  /-- It reports on every entry. -/
  items : r.2.results.map (fun item => (item.key, item.ip, item.gateway)) =
    entries.map fun entry => (entry.1, entry.2.ip, entry.2.gateway)
  /-- It reports what an attempt for the address came to. -/
  reported : ∀ item ∈ r.2.results, (item.ip, item.success) ∈ verdicts es
  /-- Every attempt is reported. -/
  covered : ∀ v ∈ verdicts es, ∃ item ∈ r.2.results, (item.ip, item.success) = v
  /-- No attempt follows one that succeeded. -/
  once : ∀ ip, (verdicts es).count (ip, true) ≤ 1
  /-- The calls that delete a system route are those of the attempts. -/
  calls : ∀ ip, es.countP (deletes ip) = (verdicts es).countP (fun v => v.1 = ip)
  /-- The database is saved with every removal. -/
  saved : ∀ ip, (ip, true) ∈ verdicts es → h.routesFile = some (encodeRoutes r.1.installedRoutes)
  /-- Without one it is what it was. -/
  unsaved : (∀ ip, (ip, true) ∉ verdicts es) → r.1 = m₀ ∧ h.routesFile = h₀.routesFile
  /-- When no attempt fails, the system route table has lost the addresses that are gone. -/
  kernel : (∀ v ∈ verdicts es, v.2 = true) → h = { h₀ with
    routesFile := h.routesFile, kernel := fun ip => if (ip, true) ∈ verdicts es then
      none else h₀.kernel ip }

namespace Removing

variable {m₀ : Memory} {h₀ h h' : Host} {entries : List (Bytes × RouteTarget)}
  {es es' : List HostEvent} {r : Memory × Deletion} {m' : Routes} {result : Except Bytes Unit}

omit [Platform] in
/-- The beginning of a removal. -/
theorem start (hm : m.installedRoutes.NoEmpty) (h : Host) :
    Removing request m h [] [] (m, ⟨0, 0, OrdMap.empty, []⟩) h where
  split _ := rfl
  settings := rfl
  lookup _ _ := rfl
  noEmpty := hm
  noted _ _ := by simp [verdicts]
  matched := rfl
  succeeded := rfl
  items := rfl
  reported _ hitem := by cases hitem
  covered _ hv := by cases hv
  once _ := Nat.zero_le _
  calls _ := rfl
  saved _ hv := by cases hv
  unsaved _ := ⟨rfl, rfl⟩
  kernel _ := rfl

omit [Platform] in
/-- **An entry whose address is gone** is reported as deleted. -/
theorem skip (hs : Removing request m₀ h₀ entries es r h)
    (hplain : ∀ entry ∈ matching request m₀.installedRoutes, 10 ∉ entry.2.ip)
    {entry : Bytes × RouteTarget} (hentry : entry ∈ matching request m₀.installedRoutes)
    (hgone : (entry.2.ip, true) ∈ verdicts es) (u : Unit) :
    Removing request m₀ h₀ (entries ++ [entry]) es (r.1, r.2.note entry.1 entry.2 (.ok u)) h := by
  refine { hs with
    noted := ?_, matched := ?_, succeeded := ?_, items := ?_, reported := ?_, covered := ?_ }
  · intro entry' hentry'
    rw [← hs.noted entry' hentry']
    simp only [Deletion.note, OrdMap.find_insert]
    split_ifs with hid
    · -- the identifier is that of this entry
      obtain ⟨hip, -⟩ := routeId_inj (hplain _ hentry') (hplain _ hentry) hid
      refine iff_of_true (Option.some_ne_none _) ((hs.noted entry' hentry').mpr ?_)
      rwa [hip]
    · rfl
  · rw [List.length_append]
    exact congrArg (· + 1) hs.matched
  · simp only [Deletion.note, List.countP_append, hs.succeeded]
    rfl
  · simp only [Deletion.note, List.map_append, hs.items]
    rfl
  · intro item hitem
    rcases List.mem_append.mp hitem with hitem | hitem
    · exact hs.reported item hitem
    · obtain rfl := List.mem_singleton.mp hitem
      exact hgone
  · intro v hv
    obtain ⟨item, hitem, heq⟩ := hs.covered v hv
    exact ⟨item, List.mem_append_left _ hitem, heq⟩

omit [Platform] in
/-- What is left when an address is taken from all keys. -/
theorem lookup_forgotten (hs : Removing request m₀ h₀ entries es r h)
    (hm : m₀.installedRoutes.refs.Agree) {entry : Bytes × RouteTarget}
    (hentry : entry ∈ matching request m₀.installedRoutes) (hnot : (entry.2.ip, true) ∉ verdicts es)
    (key ip : Bytes) :
    (r.1.installedRoutes.forget entry.2.ip entry.2.gateway).lookup key ip =
      if ip = entry.2.ip then none else r.1.installedRoutes.lookup key ip := by
  rw [Routes.lookup_forget]
  by_cases hip : ip = entry.2.ip
  · subst hip
    rw [if_pos rfl]
    split_ifs with hsame
    · rfl
    · -- a reference to the address is one through the gateway of the entry
      rw [Routes.refs, hs.lookup, if_neg hnot] at hsame
      rw [hs.lookup, if_neg hnot]
      cases hl : m₀.installedRoutes.lookup key entry.2.ip with
      | none => rfl
      | some metadata =>
        have hgw : metadata.gateway = entry.2.gateway :=
          hm (Routes.refs_eq_some.mpr ⟨metadata, hl, rfl⟩) (refs_of_matching hentry)
        rw [hl, Option.map_some, hgw] at hsame
        exact absurd ⟨rfl, rfl⟩ hsame
  · rw [if_neg hip, if_neg fun h => hip h.1]

omit [Platform] in
/-- **An entry whose address is not gone** is attempted, and reported by what the attempt came
to. -/
theorem attempt (hs : Removing request m₀ h₀ entries es r h) (hm : m₀.installedRoutes.refs.Agree)
    (hplain : ∀ entry ∈ matching request m₀.installedRoutes, 10 ∉ entry.2.ip)
    {entry : Bytes × RouteTarget} (hentry : entry ∈ matching request m₀.installedRoutes)
    (hnot : (entry.2.ip, true) ∉ verdicts es)
    (ha : Attempt r.1.installedRoutes entry.2.ip entry.2.gateway h es' m' result.isOk h') :
    Removing request m₀ h₀ (entries ++ [entry]) (es ++ es')
      ({ r.1 with installedRoutes := m' }, r.2.note entry.1 entry.2 result) h' := by
  have hverdicts : verdicts (es ++ es') = verdicts es ++ [(entry.2.ip, result.isOk)] := by
    have hone := ha.verdict []
    rw [List.append_nil] at hone
    rw [hs.split, hone]
    rfl
  have hgone : ∀ ip, (ip, true) ∈ verdicts (es ++ es') ↔
      (ip, true) ∈ verdicts es ∨ (ip = entry.2.ip ∧ result.isOk = true) := by
    intro ip
    rw [hverdicts, List.mem_append, List.mem_singleton, Prod.mk.injEq, eq_comm (a := true)]
  obtain ⟨message, hresults⟩ : ∃ message, (r.2.note entry.1 entry.2 result).results =
      r.2.results ++ [⟨entry.1, entry.2.ip, entry.2.gateway, result.isOk, message⟩] := by
    cases result <;> exact ⟨_, rfl⟩
  have hlookup := hs.lookup_forgotten hm hentry hnot
  constructor
  case split =>
    intro rest
    rw [List.append_assoc, hs.split, ha.verdict, hverdicts, List.append_assoc]
    rfl
  case settings => exact congrArg (fun m : Memory => { m with installedRoutes := m' }) hs.settings
  case lookup =>
    intro key ip
    cases hok : result.isOk with
    | true =>
      rw [(ha.done hok).1, hlookup, hs.lookup]
      simp only [hgone, hok, and_true]
      by_cases hip : ip = entry.2.ip
      · rw [if_pos hip, if_pos (Or.inr hip)]
      · simp only [hip, or_false, if_false]
    | false =>
      rw [(ha.failed hok).1, hs.lookup]
      simp only [hgone, hok, Bool.false_eq_true, and_false, or_false]
  case noEmpty =>
    cases hok : result.isOk with
    | true =>
      rw [(ha.done hok).1]
      exact Routes.noEmpty_forget _ _ _
    | false =>
      rw [(ha.failed hok).1]
      exact hs.noEmpty
  case noted =>
    intro entry' hentry'
    rw [hgone, ← hs.noted entry' hentry']
    cases result with
    | error e => simp [Deletion.note, Except.isOk, Except.toBool]
    | ok u =>
      simp only [Deletion.note, OrdMap.find_insert, Except.isOk, Except.toBool, and_true]
      split_ifs with hid
      · obtain ⟨hip, -⟩ := routeId_inj (hplain _ hentry') (hplain _ hentry) hid
        exact iff_of_true (Option.some_ne_none _) (Or.inr hip)
      · -- the same address has the same gateway, and so the same identifier
        refine (or_iff_left fun hip => hid ?_).symm
        have hused := refs_of_matching hentry'
        rw [hip] at hused
        rw [hip, hm hused (refs_of_matching hentry)]
  case matched =>
    rw [List.length_append]
    cases result <;> exact congrArg (· + 1) hs.matched
  case succeeded =>
    rw [hresults, List.countP_append, ← hs.succeeded]
    cases result <;> rfl
  case items =>
    rw [hresults, List.map_append, List.map_append, hs.items]
    rfl
  case reported =>
    intro item hitem
    rw [hresults] at hitem
    rw [hverdicts]
    rcases List.mem_append.mp hitem with hitem | hitem
    · exact List.mem_append_left _ (hs.reported item hitem)
    · obtain rfl := List.mem_singleton.mp hitem
      exact List.mem_append_right _ (List.mem_singleton_self _)
  case covered =>
    intro v hv
    rw [hresults]
    rw [hverdicts] at hv
    rcases List.mem_append.mp hv with hv | hv
    · obtain ⟨item, hitem, heq⟩ := hs.covered v hv
      exact ⟨item, List.mem_append_left _ hitem, heq⟩
    · obtain rfl := List.mem_singleton.mp hv
      exact ⟨_, List.mem_append_right _ (List.mem_singleton_self _), rfl⟩
  case once =>
    intro ip
    rw [hverdicts, List.count_append]
    by_cases hip : ip = entry.2.ip
    · have hzero : (verdicts es).count (ip, true) = 0 := List.count_eq_zero.mpr (hip ▸ hnot)
      have hone := List.count_le_length (a := (ip, true)) (l := [(entry.2.ip, result.isOk)])
      rw [List.length_singleton] at hone
      omega
    · have hzero : [(entry.2.ip, result.isOk)].count (ip, true) = 0 :=
        List.count_eq_zero.mpr (by simp [hip])
      have := hs.once ip
      omega
  case calls =>
    intro ip
    rw [hverdicts, List.countP_append, List.countP_append, ← hs.calls, ha.calls,
      List.countP_singleton]
    exact congrArg _ (if_congr (eq_comm.trans decide_eq_true_iff.symm) rfl rfl)
  case saved =>
    intro ip hip
    cases hok : result.isOk with
    | true => rw [(ha.done hok).2]
    | false =>
      simp only [hgone, hok, Bool.false_eq_true, and_false, or_false] at hip
      rw [(ha.failed hok).1, (ha.failed hok).2]
      exact hs.saved ip hip
  case unsaved =>
    intro hnone
    cases hok : result.isOk with
    | true => exact absurd ((hgone entry.2.ip).mpr (Or.inr ⟨rfl, hok⟩)) (hnone entry.2.ip)
    | false =>
      obtain ⟨hr, hfile⟩ := hs.unsaved fun ip hip => hnone ip ((hgone ip).mpr (Or.inl hip))
      rw [(ha.failed hok).1, (ha.failed hok).2]
      exact ⟨hr, hfile⟩
  case kernel =>
    intro hall
    have hok : result.isOk = true := hall (entry.2.ip, result.isOk) (by simp [hverdicts])
    have hkernel := hs.kernel fun v hv => hall v (by simp [hverdicts, hv])
    have hglobal : h.globalFile = h₀.globalFile := by rw [hkernel]
    have hclock : h.clock = h₀.clock := by rw [hkernel]
    have htable : h.kernel = fun ip => if (ip, true) ∈ verdicts es then none else h₀.kernel ip := by
      rw [hkernel]
    have hupdate : Function.update h.kernel entry.2.ip none = fun ip =>
        if (ip, true) ∈ verdicts (es ++ es') then none else h₀.kernel ip := by
      funext ip
      rw [Function.update_apply, htable]
      simp only [hgone, hok, and_true]
      by_cases hip : ip = entry.2.ip
      · rw [if_pos hip, if_pos (Or.inr hip)]
      · simp only [hip, or_false, if_false]
    rw [(ha.done hok).2, hupdate, hglobal, hclock]

/-- **One entry that matches.** -/
theorem visit (hs : Removing request m₀ h₀ entries es r h) (hm : m₀.installedRoutes.refs.Agree)
    (hplain : ∀ entry ∈ matching request m₀.installedRoutes, 10 ∉ entry.2.ip)
    {entry : Bytes × RouteTarget} (hentry : entry ∈ matching request m₀.installedRoutes)
    {r' : Memory × Deletion} (hrun : Exec Host.Answers (visit r entry) h es' r' h') :
    Removing request m₀ h₀ (entries ++ [entry]) (es ++ es') r' h' := by
  unfold RouteService.visit at hrun
  cases hnoted : r.2.deletedSystemRoutes.find (routeId entry.2.ip entry.2.gateway) with
  | some u =>
    simp only [hnoted] at hrun
    obtain ⟨rfl, rfl, rfl⟩ := exec_pure_iff.mp hrun
    rw [List.append_nil]
    exact hs.skip hplain hentry
      ((hs.noted entry hentry).mp (by rw [hnoted]; exact Option.some_ne_none _)) ()
  | none =>
    have hnot : (entry.2.ip, true) ∉ verdicts es :=
      fun hgone => (hs.noted entry hentry).mpr hgone hnoted
    have hused : r.1.installedRoutes.refs entry.1 entry.2.ip = some entry.2.gateway := by
      rw [Routes.refs, hs.lookup, if_neg hnot]
      exact refs_of_matching hentry
    simp only [hnoted, remove_of_refs hused] at hrun
    obtain ⟨⟨m', result⟩, h₁, es₁, es₂, rfl, hdelete, hret⟩ := exec_do_iff.mp hrun
    obtain ⟨rfl, rfl, rfl⟩ := exec_pure_iff.mp hret
    rw [List.append_nil]
    exact hs.attempt hm hplain hentry hnot (attempt_of_delete (exec_deleteRoute hdelete))

omit [Platform] in
/-- The addresses that were attempted are those of the entries. -/
theorem attempted_iff (hs : Removing request m₀ h₀ entries es r h) (ip : Bytes) :
    (∃ ok, (ip, ok) ∈ verdicts es) ↔ ∃ entry ∈ entries, entry.2.ip = ip := by
  have hips : r.2.results.map (·.ip) = entries.map (·.2.ip) := by
    have hitems := congrArg (List.map fun item : Bytes × Bytes × Bytes => item.2.1) hs.items
    rwa [List.map_map, List.map_map] at hitems
  constructor
  · rintro ⟨ok, hv⟩
    obtain ⟨item, hitem, heq⟩ := hs.covered _ hv
    have hmem : item.ip ∈ entries.map (·.2.ip) := hips ▸ List.mem_map_of_mem hitem
    obtain ⟨entry, hentry, hip⟩ := List.mem_map.mp hmem
    exact ⟨entry, hentry, hip.trans (Prod.mk.inj heq).1⟩
  · rintro ⟨entry, hentry, rfl⟩
    have hmem : entry.2.ip ∈ r.2.results.map (·.ip) := hips ▸ List.mem_map_of_mem hentry
    obtain ⟨item, hitem, hip⟩ := List.mem_map.mp hmem
    exact ⟨item.success, hip ▸ hs.reported item hitem⟩

end Removing

variable {m' : Memory} {h h' : Host} {es : List HostEvent} {response : HttpResponse}

/-- **The whole removal.** -/
theorem removing_of_run (hvalid : ValidFilter request)
    (hm : m.installedRoutes.refs.Agree) (hne : m.installedRoutes.NoEmpty)
    (hplain : ∀ key ip metadata, m.installedRoutes.lookup key ip = some metadata → 10 ∉ ip)
    (hrun : Exec Host.Answers (serve (routeDelete request) m) h es (m', response) h') :
    ∃ d, response = d.response ∧
      Removing request m h (matching request m.installedRoutes) es (m', d) h' := by
  have hplain' : ∀ entry ∈ matching request m.installedRoutes, 10 ∉ entry.2.ip := by
    intro entry hentry
    obtain ⟨metadata, hl, -⟩ := Routes.refs_eq_some.mp (refs_of_matching hentry)
    exact hplain _ _ _ hl
  rw [serve_routeDelete hvalid] at hrun
  obtain ⟨⟨m₁, d⟩, h₁, es₁, es₂, rfl, hloop, hret⟩ := exec_do_iff.mp hrun
  obtain ⟨rfl, heq, rfl⟩ := exec_pure_iff.mp hret
  obtain ⟨rfl, rfl⟩ := Prod.mk.inj heq
  rw [List.append_nil]
  refine ⟨d, rfl, exec_loop_inv (Removing request m h) ?_ (Removing.start hne h) hloop⟩
  intro entries entry rest es r h es' r' h' hsplit hs hvisit
  exact hs.visit hm hplain' (by rw [hsplit]; simp) hvisit

/-! ### When everything succeeds -/

/-- Whether this is no failed save and no failed `delete_system_route`. -/
def fulfilled : HostEvent → Bool
  | ⟨.replaceRoutes _, some _⟩ => false
  | ⟨.deleteSystemRoute _ _, .error _⟩ => false
  | _ => true

omit [Platform] in
theorem verdicts_of_fulfilled (hall : ∀ e ∈ es, fulfilled e = true) :
    ∀ v ∈ verdicts es, v.2 = true := by
  fun_induction verdicts es with
  | case1 => simp
  | case2 ip gateway e es ih => cases hall _ List.mem_cons_self
  | case3 ip gateway u content es ih =>
    intro v hv
    rcases List.mem_cons.mp hv with rfl | hv
    · rfl
    · exact ih (fun e he => hall e (List.mem_cons_of_mem _ (List.mem_cons_of_mem _ he))) v hv
  | case4 ip gateway u content fault es ih =>
    cases hall _ (List.mem_cons_of_mem _ List.mem_cons_self)
  | case5 e es _ _ _ ih => exact ih fun e' he' => hall e' (List.mem_cons_of_mem _ he')

/-- The references that match the filter of a request. -/
def Matches (request : HttpRequest) (m : Routes) : Set (Bytes × Bytes) :=
  {entry | m.lookup entry.1 entry.2 ≠ none ∧ wanted (getRouteKey request) entry.1 = true ∧
    wanted (parameter request (text "ip") (text "target")) entry.2 = true}

omit [Platform] in
/-- They are the entries that match. -/
theorem mem_matches_iff {m : Routes} {key ip : Bytes} :
    (key, ip) ∈ Matches request m ↔
      ∃ entry ∈ matching request m, (entry.1, entry.2.ip) = (key, ip) := by
  constructor
  · rintro ⟨hl, hwanted⟩
    obtain ⟨metadata, hl⟩ := Option.ne_none_iff_exists'.mp hl
    exact ⟨(key, shown ip metadata), mem_matching.mpr ⟨⟨metadata, hl, rfl⟩, hwanted⟩, rfl⟩
  · rintro ⟨⟨key', target⟩, hentry, heq⟩
    obtain ⟨rfl, rfl⟩ := Prod.mk.inj heq
    obtain ⟨⟨metadata, hl, -⟩, hwanted⟩ := mem_matching.mp hentry
    exact ⟨by rw [hl]; exact Option.some_ne_none _, hwanted⟩

omit [Platform] in
/-- As many. -/
theorem length_matching (request : HttpRequest) (m : Routes) :
    (matching request m).length = (Matches request m).ncard := by
  have hset : Matches request m =
      ↑((matching request m).map fun entry => (entry.1, entry.2.ip)).toFinset := by
    ext ⟨key, ip⟩
    rw [mem_matches_iff, List.coe_toFinset, Set.mem_ofPred_eq, List.mem_map]
  rw [hset, Set.ncard_coe_finset, List.toFinset_card_of_nodup (nodup_matching request m),
    List.length_map]

/-- Whether an entry that matches has this address. -/
def reached (request : HttpRequest) (m : Routes) (ip : Bytes) : Bool :=
  (matching request m).any fun entry => entry.2.ip = ip

omit [Platform] in
theorem reached_iff {m : Routes} {ip : Bytes} : reached request m ip = true ↔
    ∃ key, (key, ip) ∈ Matches request m := by
  simp only [reached, List.any_eq_true, decide_eq_true_eq, mem_matches_iff]
  constructor
  · rintro ⟨entry, hentry, rfl⟩
    exact ⟨entry.1, entry, hentry, rfl⟩
  · rintro ⟨key, entry, hentry, heq⟩
    exact ⟨entry, hentry, (Prod.mk.inj heq).2⟩

/-- A group without the addresses that are `gone`. -/
def groupWithout (gone : Bytes → Bool) (group : KeyRoutes) : KeyRoutes :=
  OrdMap.filterMap (fun ip metadata => if gone ip then none else some metadata) group

/-- The index without the addresses that are `gone`, under any key, and without the
groups that are empty then. -/
def without (m : Routes) (gone : Bytes → Bool) : Routes :=
  OrdMap.filterMap (fun _ group => if (groupWithout gone group).isEmpty then
    none else some (groupWithout gone group)) m

omit [Platform] in
theorem lookup_without (m : Routes) (gone : Bytes → Bool) (key ip : Bytes) :
    (without m gone).lookup key ip = if gone ip then none else m.lookup key ip := by
  rw [without, Routes.lookup_rewritten, Routes.lookup]
  cases OrdMap.find m key with
  | none => simp
  | some group =>
    simp only [Option.bind_some, groupWithout, OrdMap.find_filterMap]
    cases OrdMap.find group ip <;> simp

omit [Platform] in
theorem noEmpty_without (m : Routes) (gone : Bytes → Bool) : (without m gone).NoEmpty :=
  Routes.noEmpty_rewritten _ m

namespace Removing

variable {m₀ : Memory} {h₀ : Host} {r : Memory × Deletion}

omit [Platform] in
/-- When no attempt fails, the addresses that are gone are those of the entries that match. -/
theorem gone_iff (hs : Removing request m₀ h₀ (matching request m₀.installedRoutes) es r h)
    (hok : ∀ v ∈ verdicts es, v.2 = true) (ip : Bytes) :
    (ip, true) ∈ verdicts es ↔ reached request m₀.installedRoutes ip = true := by
  simp only [reached, List.any_eq_true, decide_eq_true_eq]
  rw [← hs.attempted_iff ip]
  constructor
  · exact fun hv => ⟨true, hv⟩
  · rintro ⟨ok, hv⟩
    obtain rfl : ok = true := hok _ hv
    exact hv

omit [Platform] in
/-- The index has lost them, and nothing else. -/
theorem routes_eq (hs : Removing request m₀ h₀ (matching request m₀.installedRoutes) es r h)
    (hok : ∀ v ∈ verdicts es, v.2 = true) :
    r.1.installedRoutes = without m₀.installedRoutes (reached request m₀.installedRoutes) := by
  refine hs.noEmpty.ext (noEmpty_without _ _) fun key ip => ?_
  rw [hs.lookup, lookup_without]
  exact if_congr (hs.gone_iff hok ip) rfl rfl

omit [Platform] in
/-- The response reports all entries as deleted. -/
theorem response_eq (hs : Removing request m₀ h₀ (matching request m₀.installedRoutes) es r h)
    (hok : ∀ v ∈ verdicts es, v.2 = true) :
    let count := (Matches request m₀.installedRoutes).ncard
    ∃ message routes,
      r.2.response = .routesDeleted (if count = 0 then 404 else 200)
          (count ≠ 0) message count count routes := by
  intro count
  have hcount : (matching request m₀.installedRoutes).length = count := length_matching _ _
  have hsucceeded : r.2.succeeded = count := by
    have hlength := congrArg List.length hs.items
    rw [List.length_map, List.length_map] at hlength
    rw [hs.succeeded, ← hcount, ← hlength, List.countP_eq_length]
    exact fun item hitem => hok _ (hs.reported item hitem)
  refine ⟨if count = 0 then text "no matching routes found" else text "all matching routes deleted",
    r.2.results, ?_⟩
  unfold Deletion.response
  rw [hs.matched.trans hcount, hsucceeded]
  by_cases hzero : count = 0
  · simp [hzero]
  · simp [hzero, batchStatus]

end Removing

/-- **A removal by filter when every call succeeds**: it reports all references that match as
deleted, takes their addresses from all keys, from the database and from the system route table, and
nothing else, and asks the system for each address once. -/
theorem delete_by_filter (hvalid : ValidFilter request) (hm : CoherentState m.installedRoutes h)
    (hplain : ∀ key ip metadata, m.installedRoutes.lookup key ip = some metadata → 10 ∉ ip)
    (hrun : Exec Host.Answers (serve (routeDelete request) m) h es (m', response) h')
    (hall : ∀ e ∈ es, fulfilled e = true) :
    let count := (Matches request m.installedRoutes).ncard
    (∃ message routes, response =
        .routesDeleted (if count = 0 then 404 else 200) (count ≠ 0) message count count routes) ∧
      m' = { m with
        installedRoutes := without m.installedRoutes (reached request m.installedRoutes) } ∧
      h' = { h with
        routesFile := if count = 0 then h.routesFile else some (encodeRoutes m'.installedRoutes)
        kernel := fun ip => if reached request m.installedRoutes ip then none else h.kernel ip } ∧
      (h.routesFile = some (encodeRoutes m.installedRoutes) →
        h'.routesFile = some (encodeRoutes m'.installedRoutes)) ∧
      ∀ ip, es.countP (deletes ip) = if reached request m.installedRoutes ip then 1 else 0 := by
  obtain ⟨d, rfl, hs⟩ := removing_of_run hvalid hm.1.agree hm.2 hplain hrun
  have hok := verdicts_of_fulfilled hall
  have hgone := hs.gone_iff hok
  intro count
  have hcount : (matching request m.installedRoutes).length = count := length_matching _ _
  have hnone : count = 0 → ∀ ip, (ip, true) ∉ verdicts es := by
    intro hzero ip hv
    obtain ⟨entry, hentry, -⟩ := (hs.attempted_iff ip).mp ⟨true, hv⟩
    rw [List.length_eq_zero_iff.mp (hcount.trans hzero)] at hentry
    cases hentry
  have hfile : h'.routesFile = if count = 0 then
      h.routesFile else some (encodeRoutes m'.installedRoutes) := by
    split_ifs with hzero
    · exact (hs.unsaved (hnone hzero)).2
    · -- there is an entry, and its address is gone
      obtain ⟨entry, hentry⟩ := List.exists_mem_of_length_pos (hcount ▸ Nat.pos_of_ne_zero hzero)
      obtain ⟨ok, hv⟩ := (hs.attempted_iff entry.2.ip).mpr ⟨entry, hentry, rfl⟩
      obtain rfl : ok = true := hok _ hv
      exact hs.saved _ hv
  refine ⟨hs.response_eq hok, ?_, ?_, ?_, ?_⟩
  · rw [← hs.routes_eq hok]
    exact hs.settings
  · rw [← hfile]
    refine (hs.kernel hok).trans ?_
    simp only [hgone]
  · intro hfile₀
    rw [hfile]
    split_ifs with hzero
    · have hsame : m' = m := (hs.unsaved (hnone hzero)).1
      rw [hfile₀, hsame]
    · rfl
  · intro ip
    have hcountP : (verdicts es).countP (fun v => v.1 = ip) = (verdicts es).count (ip, true) := by
      refine List.countP_congr fun v hv => ?_
      obtain ⟨ip', ok⟩ := v
      obtain rfl : ok = true := hok _ hv
      simp
    rw [hs.calls, hcountP]
    by_cases hip : reached request m.installedRoutes ip = true
    · have hpos := List.count_pos_iff.mpr ((hgone ip).mpr hip)
      have hle := hs.once ip
      rw [if_pos hip]
      omega
    · rw [if_neg hip]
      exact List.count_eq_zero.mpr fun hv => hip ((hgone ip).mp hv)

/-! ### When calls fail -/

/-- **The response tells the truth**: a reference is reported as deleted exactly if it is
not in the index `m'`, and the status is that of all, none or some of the references that
matched in `m` being gone. -/
def Truthful (request : HttpRequest) (m m' : Routes) (response : HttpResponse) : Prop :=
  (∀ item ∈ response.deleted, item.success = true ↔ m'.lookup item.key item.ip = none) ∧
    (matching request m ≠ [] → response.status =
      if ∀ entry ∈ matching request m, m'.lookup entry.1 entry.2.ip = none then 200
      else if ∀ entry ∈ matching request m, m'.lookup entry.1 entry.2.ip ≠ none then 500 else 207)

omit [Platform] in
theorem deleted_response (d : Deletion) : d.response.deleted = d.results := by
  unfold Deletion.response
  split_ifs <;> rfl

omit [Platform] in
/-- The status counts the items reported as deleted. -/
theorem status_of_removing {entries : List (Bytes × RouteTarget)} {r : Memory × Deletion}
    {m₀ : Memory} {h₀ : Host} (hs : Removing request m₀ h₀ entries es r h) (hne : entries ≠ []) :
    r.2.response.status = if ∀ item ∈ r.2.results, item.success = true then 200
      else if ∀ item ∈ r.2.results, item.success = false then 500 else 207 := by
  have hlength : r.2.matched = r.2.results.length := by
    have hitems := congrArg List.length hs.items
    rw [List.length_map, List.length_map] at hitems
    rw [hs.matched, hitems]
  have hpos : ¬ r.2.matched = 0 := by
    rw [hs.matched]
    exact fun hzero => hne (List.length_eq_zero_iff.mp hzero)
  rw [Deletion.response, if_neg hpos]
  simp only [HttpResponse.status, batchStatus, hlength, hs.succeeded, List.countP_eq_length,
    List.countP_eq_zero, Bool.not_eq_true]

omit [Platform] in
/-- What is said of the references that match can be said of the items. -/
theorem Removing.forall_items {entries : List (Bytes × RouteTarget)} {r : Memory × Deletion}
    {m₀ : Memory} {h₀ : Host} (hs : Removing request m₀ h₀ entries es r h)
    (P : Bytes → Bytes → Prop) :
    (∀ item ∈ r.2.results, P item.key item.ip) ↔ ∀ entry ∈ entries, P entry.1 entry.2.ip := by
  have hpairs : r.2.results.map (fun item => (item.key, item.ip)) =
      entries.map fun entry => (entry.1, entry.2.ip) := by
    have hitems :=
      congrArg (List.map fun item : Bytes × Bytes × Bytes => (item.1, item.2.1)) hs.items
    rwa [List.map_map, List.map_map] at hitems
  have hall : (∀ pair ∈ r.2.results.map (fun item => (item.key, item.ip)), P pair.1 pair.2) ↔
      ∀ pair ∈ entries.map (fun entry => (entry.1, entry.2.ip)), P pair.1 pair.2 := by rw [hpairs]
  simpa only [List.forall_mem_map] using hall

/-- **When a removal tells the truth**, whichever calls fail: it reports on the references
that match, and truly so if and only if there is no address for which an attempt failed
and another one succeeded. -/
theorem delete_truthful_iff (hvalid : ValidFilter request) (hm : CoherentState m.installedRoutes h)
    (hplain : ∀ key ip metadata, m.installedRoutes.lookup key ip = some metadata → 10 ∉ ip)
    (hrun : Exec Host.Answers (serve (routeDelete request) m) h es (m', response) h') :
    response.deleted.map (fun item => (item.key, item.ip, item.gateway)) =
        (matching request m.installedRoutes).map
          (fun entry => (entry.1, entry.2.ip, entry.2.gateway)) ∧
      (Truthful request m.installedRoutes m'.installedRoutes response ↔
        ¬ ∃ ip, (ip, false) ∈ verdicts es ∧ (ip, true) ∈ verdicts es) := by
  obtain ⟨d, rfl, hs⟩ := removing_of_run hvalid hm.1.agree hm.2 hplain hrun
  have hgone : ∀ item ∈ d.results, m'.installedRoutes.lookup item.key item.ip = none ↔
      (item.ip, true) ∈ verdicts es := by
    intro item hitem
    -- before the removal the reference was there
    have hthere : ∀ item ∈ d.results, m.installedRoutes.lookup item.key item.ip ≠ none := by
      refine (hs.forall_items fun key ip => m.installedRoutes.lookup key ip ≠ none).mpr
        fun entry hentry => ?_
      exact mt Routes.refs_eq_none.mpr
        (by rw [refs_of_matching hentry]; exact Option.some_ne_none _)
    rw [hs.lookup]
    split_ifs with hv
    · exact iff_of_true rfl hv
    · exact iff_of_false (hthere item hitem) hv
  rw [deleted_response]
  refine ⟨hs.items, ?_, ?_⟩
  · rintro ⟨hitems, -⟩ ⟨ip, hfailed, hdone⟩
    obtain ⟨item, hitem, heq⟩ := hs.covered _ hfailed
    obtain ⟨hip, hsuccess⟩ := Prod.mk.inj heq
    rw [deleted_response] at hitems
    have htrue := (hitems item hitem).mpr ((hgone item hitem).mpr (hip ▸ hdone))
    rw [hsuccess] at htrue
    cases htrue
  · intro hone
    have hitems : ∀ item ∈ d.results, item.success = true ↔
        m'.installedRoutes.lookup item.key item.ip = none := by
      intro item hitem
      rw [hgone item hitem]
      have hreported := hs.reported item hitem
      cases hsuccess : item.success with
      | true => exact iff_of_true rfl (hsuccess ▸ hreported)
      | false =>
        exact iff_of_false Bool.false_ne_true fun hdone =>
          hone ⟨item.ip, hsuccess ▸ hreported, hdone⟩
    refine ⟨by rwa [deleted_response], fun hne => ?_⟩
    rw [status_of_removing hs hne]
    have hall : (∀ item ∈ d.results, item.success = true) ↔
        ∀ entry ∈ matching request m.installedRoutes,
            m'.installedRoutes.lookup entry.1 entry.2.ip = none :=
      (forall₂_congr hitems).trans (hs.forall_items fun key ip =>
        m'.installedRoutes.lookup key ip = none)
    have hnone : (∀ item ∈ d.results, item.success = false) ↔
        ∀ entry ∈ matching request m.installedRoutes,
            m'.installedRoutes.lookup entry.1 entry.2.ip ≠ none := by
      refine Iff.trans (forall₂_congr fun item hitem => ?_)
        (hs.forall_items fun key ip => m'.installedRoutes.lookup key ip ≠ none)
      rw [Ne, ← hitems item hitem, Bool.not_eq_true]
    exact if_congr hall rfl (if_congr hnone rfl rfl)

section Sample

omit [Platform]

/-- Two keys reach an address, and one of them another one. -/
abbrev sharedMemory : Memory :=
  ⟨Routes.set
    (Routes.set (Routes.set OrdMap.empty (text "a") (text "10.0.0.1") ⟨text "10.0.0.254", 0, 0, 0⟩)
    (text "b") (text "10.0.0.1") ⟨text "10.0.0.254", 0, 0, 0⟩) (text "b") (text "10.0.0.2")
      ⟨text "10.0.0.254", 0, 0, 0⟩,
    [], false⟩

/-- A host with these routes. -/
abbrev sharedHost : Host :=
  ⟨some (encodeRoutes sharedMemory.installedRoutes), none,
    fun ip => if ip = text "10.0.0.1" ∨ ip = text "10.0.0.2" then
    some (text "10.0.0.254") else none, 0⟩

/-- A request to delete what a key reaches. -/
abbrev deleteKey (key : Bytes) : HttpRequest :=
  ⟨fun name => if name = text "key" then some key else none⟩

/-- A request to delete what is reached at the shared address. -/
abbrev deleteAddress : HttpRequest :=
  ⟨fun name => if name = text "ip" then some (text "10.0.0.1") else none⟩

theorem lookup_sharedMemory {key ip : Bytes} {metadata : RouteMetadata}
    (hl : sharedMemory.installedRoutes.lookup key ip = some metadata) :
    (ip = text "10.0.0.1" ∨ ip = text "10.0.0.2") ∧ metadata.gateway = text "10.0.0.254" := by
  simp only [Routes.lookup_set] at hl
  split_ifs at hl with h₁ h₂ h₃
  · exact ⟨Or.inr h₁.2, by rw [← Option.some.inj hl]⟩
  · exact ⟨Or.inl h₂.2, by rw [← Option.some.inj hl]⟩
  · exact ⟨Or.inl h₃.2, by rw [← Option.some.inj hl]⟩
  · cases hl

theorem coherent_shared : CoherentState sharedMemory.installedRoutes sharedHost := by
  refine ⟨fun ip gateway => ⟨fun hkernel => ?_, fun ⟨key, hused⟩ => ?_⟩,
    ((Routes.NoEmpty.empty.set _ _ _).set _ _ _).set _ _ _⟩
  · simp only at hkernel
    split_ifs at hkernel with hip
    obtain rfl := Option.some.inj hkernel
    refine ⟨text "b", ?_⟩
    rcases hip with rfl | rfl <;> decide
  · obtain ⟨metadata, hl, rfl⟩ := Routes.refs_eq_some.mp hused
    obtain ⟨hip, hgw⟩ := lookup_sharedMemory hl
    exact (if_pos hip).trans (congrArg some hgw.symm)

theorem plain_shared (key ip : Bytes) (metadata : RouteMetadata)
    (hl : sharedMemory.installedRoutes.lookup key ip = some metadata) : 10 ∉ ip := by
  rcases (lookup_sharedMemory hl).1 with rfl | rfl <;> decide

/-- The first key gives up the address, and with it the second key. -/
theorem delete_by_filter_shared : ∃ (m' : Memory) (h' : Host) (es : List HostEvent)
    (response : HttpResponse),
    Exec Host.Answers (@serve quadPlatform _ (@routeDelete quadPlatform (deleteKey (text "a")))
        sharedMemory) sharedHost es (m', response) h' ∧
      m'.installedRoutes.lookup (text "b") (text "10.0.0.1") = none ∧
      (m'.installedRoutes.lookup (text "b") (text "10.0.0.2")).isSome = true ∧
      es.countP (deletes (text "10.0.0.1")) = 1 := by
  let _ := quadPlatform
  have hrun := exec_play Host.answers_answer {}
    (serve (routeDelete (deleteKey (text "a"))) sharedMemory) [] sharedHost
  have hvalid : ValidFilter (deleteKey (text "a")) :=
    ⟨by decide +kernel, by decide +kernel, by decide +kernel⟩
  have hall : ∀ e ∈ ((serve (routeDelete (deleteKey (text "a"))) sharedMemory).play
      Host.answer {} [] sharedHost).1, fulfilled e = true := by decide +kernel
  generalize (serve (routeDelete (deleteKey (text "a"))) sharedMemory).play
    Host.answer {} [] sharedHost = out at hrun hall
  obtain ⟨es, ⟨m', response⟩, h'⟩ := out
  obtain ⟨-, rfl, -, -, hcalls⟩ := delete_by_filter hvalid coherent_shared plain_shared hrun hall
  refine ⟨_, h', es, response, hrun, ?_, ?_, ?_⟩
  · rw [lookup_without, if_pos]
    decide +kernel
  · rw [lookup_without, if_neg]
    · decide
    · decide +kernel
  · rw [hcalls, if_pos]
    decide +kernel

/-- The second key gives up both addresses: the first one is put back because the
database cannot be saved. -/
theorem delete_truthful_iff_partial : ∃ (m' : Memory) (h' : Host) (es : List HostEvent)
    (response : HttpResponse),
    Exec Host.Answers (@serve quadPlatform _ (@routeDelete quadPlatform (deleteKey (text "b")))
        sharedMemory) sharedHost es (m', response) h' ∧ response.status = 207 ∧
      Truthful (deleteKey (text "b")) sharedMemory.installedRoutes m'.installedRoutes response := by
  let _ := quadPlatform
  have hrun := exec_play Host.answers_answer {}
    (serve (routeDelete (deleteKey (text "b"))) sharedMemory)
    [{}, { ok := false }] sharedHost
  have hvalid : ValidFilter (deleteKey (text "b")) :=
    ⟨by decide +kernel, by decide +kernel, by decide +kernel⟩
  have hverdicts : verdicts
      ((serve (routeDelete (deleteKey (text "b"))) sharedMemory).play Host.answer {}
      [{}, { ok := false }] sharedHost).1 = [(text "10.0.0.1", false), (text "10.0.0.2", true)] :=
        by decide +kernel
  have hstatus : ((serve (routeDelete (deleteKey (text "b"))) sharedMemory).play Host.answer {}
      [{}, { ok := false }] sharedHost).2.1.2.status = 207 := by decide +kernel
  generalize (serve (routeDelete (deleteKey (text "b"))) sharedMemory).play Host.answer {}
    [{}, { ok := false }] sharedHost = out at hrun hverdicts hstatus
  obtain ⟨es, ⟨m', response⟩, h'⟩ := out
  refine ⟨m', h', es, response, hrun, hstatus,
    (delete_truthful_iff hvalid coherent_shared plain_shared hrun).2.mpr ?_⟩
  rintro ⟨ip, hfailed, hdone⟩
  rw [hverdicts] at hfailed hdone
  revert hfailed hdone
  simp only [List.mem_cons, Prod.mk.injEq, List.not_mem_nil, or_false, Bool.false_eq_true,
    and_false, Bool.true_eq_false, and_true, false_or]
  rintro rfl
  decide

/-- The first attempt for a shared address fails and the second one succeeds: the first key is
reported as one that still reaches it. -/
theorem delete_not_truthful : CoherentState sharedMemory.installedRoutes sharedHost ∧
    ∃ (m' : Memory) (h' : Host) (es : List HostEvent) (response : HttpResponse),
      Exec Host.Answers
        (@serve quadPlatform _ (@routeDelete quadPlatform deleteAddress) sharedMemory) sharedHost es
          (m', response) h' ∧ es.all (fun e => succeeds e.1 e.2) = true ∧ response.status = 207 ∧
      (response.deleted.map fun item => (item.key, item.ip, item.success)) =
        [(text "a", text "10.0.0.1", false), (text "b", text "10.0.0.1", true)] ∧
      m'.installedRoutes.lookup (text "a") (text "10.0.0.1") = none ∧
      ¬ Truthful deleteAddress sharedMemory.installedRoutes m'.installedRoutes response := by
  let _ := quadPlatform
  refine ⟨coherent_shared, ?_⟩
  have hrun := exec_play Host.answers_answer {} (serve (routeDelete deleteAddress) sharedMemory)
    [{ ok := false }] sharedHost
  have hresult : ((serve (routeDelete deleteAddress) sharedMemory).play Host.answer {}
        [{ ok := false }] sharedHost).1.all
        (fun e => succeeds e.1 e.2) = true ∧
      ((serve (routeDelete deleteAddress) sharedMemory).play Host.answer {}
        [{ ok := false }] sharedHost).2.1.2.status = 207 ∧
      (((serve (routeDelete deleteAddress) sharedMemory).play Host.answer {} [{ ok := false }]
        sharedHost).2.1.2.deleted.map fun item => (item.key, item.ip, item.success)) =
        [(text "a", text "10.0.0.1", false), (text "b", text "10.0.0.1", true)] ∧
      ((serve (routeDelete deleteAddress) sharedMemory).play Host.answer {} [{ ok := false }]
        sharedHost).2.1.1.installedRoutes.lookup (text "a") (text "10.0.0.1") = none :=
          by decide +kernel
  generalize (serve (routeDelete deleteAddress) sharedMemory).play Host.answer {}
    [{ ok := false }] sharedHost = out
    at hrun hresult
  obtain ⟨es, ⟨m', response⟩, h'⟩ := out
  obtain ⟨hcalls, hstatus, hitems, hgone⟩ := hresult
  refine ⟨m', h', es, response, hrun, hcalls, hstatus, hitems, hgone, fun htruthful => ?_⟩
  have hfirst : (text "a", text "10.0.0.1", false) ∈ response.deleted.map
      fun item => (item.key, item.ip, item.success) := by
    rw [hitems]
    exact List.mem_cons_self
  obtain ⟨item, hitem, heq⟩ := List.mem_map.mp hfirst
  simp only [Prod.mk.injEq] at heq
  obtain ⟨hkey, hip, hsuccess⟩ := heq
  have htrue := (htruthful.1 item hitem).mpr (by rw [hkey, hip]; exact hgone)
  rw [hsuccess] at htrue
  cases htrue

end Sample

end IpRouter.RouteService
