import IpRouter.RouteService.Schedule

/-!
# Removals among other requests

`route_delete` works through a snapshot of the index that others may have changed
long since, and takes a route for deleted when it has deleted it under another
key. It is honest all the same (`routeDelete_honest`): a route reported as deleted
was gone at some moment after the snapshot, and nothing is erased but routes the
snapshot had and the request asked for.

What the handler does with the answers it gets is `Tried`, kept by every target of
the snapshot; what the calls do is in `RouteService.Schedule`.
-/

namespace IpRouter.RouteService

open Theory RouteManager

/-- The routes a response reports on. -/
def HttpResponse.deleted : HttpResponse → List DeletedRoute
  | .routesDeleted _ _ _ _ _ routes => routes
  | _ => []

/-! ### What the handler does -/

/-- What `route_delete` has done while it works through a snapshot: it removed only what it was
asked for, and it reports as deleted only what a removal that succeeded was about. -/
structure Tried (key destination : Option Bytes) (snapshot : List RouteEntry)
    (es : List ManagerEvent) (d : Deletion) : Prop where
  /-- The calls. -/
  calls : ∀ e ∈ es, ∃ group ∈ snapshot, ∃ target ∈ group.targets, wanted key group.key = true ∧
    wanted destination target.ip = true ∧ ∃ r, e = ⟨.remove group.key target.ip target.gateway, r⟩
  /-- The routes taken for deleted. -/
  deleted : ∀ id u, d.deletedSystemRoutes.find id = some u →
    ∃ group ∈ snapshot, ∃ target ∈ group.targets, id = routeId target.ip target.gateway ∧
      ∃ key' u', ⟨.remove key' target.ip target.gateway, .ok u'⟩ ∈ es
  /-- The routes reported as deleted. -/
  results : ∀ item ∈ d.results, item.success = true →
    ∃ key' u', ⟨.remove key' item.ip item.gateway, .ok u'⟩ ∈ es

variable {key destination : Option Bytes} {snapshot : List RouteEntry} {es es' : List ManagerEvent}
  {d d' : Deletion} {group : RouteEntry} {target : RouteTarget}

theorem Tried.mono (h : Tried key destination snapshot es d)
    (hcalls : ∀ e ∈ es', ∃ group ∈ snapshot, ∃ target ∈ group.targets, wanted key group.key = true ∧
      wanted destination target.ip = true ∧
      ∃ r, e = ⟨.remove group.key target.ip target.gateway, r⟩) :
    Tried key destination snapshot (es ++ es') d where
  calls e he := (List.mem_append.mp he).elim (h.calls e) (hcalls e)
  deleted id u hid := by
    obtain ⟨group, hg, target, ht, heq, key', u', hmem⟩ := h.deleted id u hid
    exact ⟨group, hg, target, ht, heq, key', u', List.mem_append_left _ hmem⟩
  results item hitem hok := by
    obtain ⟨key', u', hmem⟩ := h.results item hitem hok
    exact ⟨key', u', List.mem_append_left _ hmem⟩

/-- A target of the snapshot may be noted as deleted once a removal of its route has succeeded. -/
theorem Tried.note_ok (h : Tried key destination snapshot es d)
    (hg : group ∈ snapshot) (ht : target ∈ group.targets)
    (hdone : ∃ key' u', ⟨.remove key' target.ip target.gateway, .ok u'⟩ ∈ es)
    (key₀ : Bytes) (u : Unit) :
    Tried key destination snapshot es (d.note key₀ target (.ok u)) where
  calls := h.calls
  deleted id u hid := by
    rw [Deletion.note, OrdMap.find_insert] at hid
    split_ifs at hid with heq
    · exact ⟨group, hg, target, ht, heq, hdone⟩
    · exact h.deleted id u hid
  results item hitem hok := by
    rcases List.mem_append.mp hitem with hitem | hitem
    · exact h.results item hitem hok
    · obtain rfl := List.mem_singleton.mp hitem
      exact hdone

theorem Tried.note_error (h : Tried key destination snapshot es d) (key₀ : Bytes)
    (target : RouteTarget) (e : Bytes) :
    Tried key destination snapshot es (d.note key₀ target (.error e)) where
  calls := h.calls
  deleted := h.deleted
  results item hitem hok := by
    rcases List.mem_append.mp hitem with hitem | hitem
    · exact h.results item hitem hok
    · obtain rfl := List.mem_singleton.mp hitem
      cases hok

/-- **Every target keeps it.** Targets hold no newline, so an identifier that was
noted is that of this route. -/
theorem Tried.step (h : Tried key destination snapshot es d)
    (hplain : ∀ group ∈ snapshot, ∀ target ∈ group.targets, 10 ∉ target.ip) (hg : group ∈ snapshot)
    (ht : target ∈ group.targets) (hkey : wanted key group.key = true)
    (hrun : Makes (deleteTarget destination group.key d target) es' d') :
    Tried key destination snapshot (es ++ es') d' := by
  unfold deleteTarget at hrun
  split_ifs at hrun with hwanted
  · cases hnoted : d.deletedSystemRoutes.find (routeId target.ip target.gateway) with
    | some u =>
      simp only [hnoted] at hrun
      obtain ⟨rfl, rfl, -⟩ := exec_pure_iff.mp hrun
      obtain ⟨group', hg', target', ht', hid, hdone⟩ := h.deleted _ _ hnoted
      obtain ⟨hip, hgateway⟩ := routeId_inj (hplain _ hg _ ht) (hplain _ hg' _ ht') hid
      rw [List.append_nil]
      exact h.note_ok hg ht (by rwa [hip, hgateway]) _ _
    | none =>
      simp only [hnoted] at hrun
      obtain ⟨result, _, es₁, rfl, -, hret⟩ := exec_lift_do_iff.mp hrun
      obtain ⟨rfl, rfl, -⟩ := exec_pure_iff.mp hret
      have hcall : Tried key destination snapshot
          (es ++ [⟨.remove group.key target.ip target.gateway, result⟩]) d :=
        h.mono fun e he => ⟨group, hg, target, ht, hkey, hwanted, result, List.mem_singleton.mp he⟩
      cases result with
      | error e => exact hcall.note_error _ _ _
      | ok u =>
        exact hcall.note_ok hg ht ⟨_, u, List.mem_append_right _ (List.mem_singleton_self _)⟩ _ _
  · obtain ⟨rfl, rfl, -⟩ := exec_pure_iff.mp hrun
    rwa [List.append_nil]

/-- So does every key, and so the whole snapshot. -/
theorem tried_of_snapshot (hplain : ∀ group ∈ snapshot, ∀ target ∈ group.targets, 10 ∉ target.ip)
    (hrun : Makes (Prog.loop (deleteGroup key destination) snapshot
      ⟨0, 0, OrdMap.empty, []⟩) es d) :
    Tried key destination snapshot es d := by
  refine exec_loop_inv (fun _ es d _ => Tried key destination snapshot es d) ?_
    ⟨by simp, by simp, by simp⟩ hrun
  intro done group rest es d _ es' d' _ hsplit h hgroup
  have hg : group ∈ snapshot := by rw [hsplit]; simp
  unfold deleteGroup at hgroup
  split_ifs at hgroup with hkey
  · refine exec_loop_inv (fun _ es' d _ => Tried key destination snapshot (es ++ es') d) ?_
      (by simpa using h) hgroup
    intro done target rest es' d _ es'' d' _ hsplit h htarget
    rw [← List.append_assoc]
    exact h.step hplain hg (by rw [hsplit]; simp) hkey htarget
  · obtain ⟨rfl, rfl, -⟩ := exec_pure_iff.mp hgroup
    rwa [List.append_nil]

variable [Platform] {request : HttpRequest} {response : HttpResponse}

/-- What `route_delete` does: it refuses the request, or works through a snapshot. -/
theorem makes_routeDelete (hrun : Makes (routeDelete request) es response) :
    (es = [] ∧ response.deleted = []) ∨
      ∃ (snapshot : List RouteEntry) (rest : List ManagerEvent)
        (d : Deletion), es = ⟨.list, snapshot⟩ :: rest ∧
        response.deleted = d.results ∧
        Makes (Prog.loop (deleteGroup (getRouteKey request)
          (parameter request (text "ip") (text "target"))) snapshot
          ⟨0, 0, OrdMap.empty, []⟩) rest d := by
  simp only [routeDelete] at hrun
  split_ifs at hrun
  · obtain ⟨rfl, rfl, -⟩ := exec_pure_iff.mp hrun
    exact Or.inl ⟨rfl, rfl⟩
  · obtain ⟨rfl, rfl, -⟩ := exec_pure_iff.mp hrun
    exact Or.inl ⟨rfl, rfl⟩
  · obtain ⟨rfl, rfl, -⟩ := exec_pure_iff.mp hrun
    exact Or.inl ⟨rfl, rfl⟩
  · obtain ⟨snapshot, _, rest, rfl, -, hrun⟩ := exec_lift_do_iff.mp hrun
    obtain ⟨d, _, es₁, es₂, rfl, hloop, hret⟩ := exec_do_iff.mp hrun
    obtain ⟨rfl, rfl, -⟩ := exec_pure_iff.mp hret
    rw [List.append_nil]
    refine Or.inr ⟨snapshot, es₁, d, rfl, ?_, hloop⟩
    unfold Deletion.response
    split_ifs <;> rfl

/-! ### The removal among others -/

omit [Platform] in
/-- `list` gives the references in the index. -/
theorem lookup_of_list {m : Routes} (hg : group ∈ list m) (ht : target ∈ group.targets) :
    ∃ metadata, m.lookup group.key target.ip = some metadata ∧
      metadata.gateway = target.gateway := by
  obtain ⟨⟨key, targets⟩, hentry, rfl⟩ := List.mem_map.mp hg
  obtain ⟨⟨ip, metadata⟩, hmem, rfl⟩ := List.mem_map.mp ht
  refine ⟨metadata, ?_, rfl⟩
  rw [Routes.lookup, OrdMap.mem_entries_iff.mp hentry]
  exact OrdMap.mem_entries_iff.mp hmem

/-- **An honest removal**, in a schedule from `s` to `s'`. -/
structure HonestDeletion (request : HttpRequest) (s : Service) (ls : List Label) (s' : Service)
    (response : HttpResponse) : Prop where
  /-- At some moment after the snapshot no key referred to a route that is reported as deleted. -/
  deleted : ∀ item ∈ response.deleted, item.success = true →
    ∃ before after s₁, ls = before ++ after ∧
    Schedule s before s₁ ∧ Schedule s₁ after s' ∧ (∃ snapshot, .own ⟨.list, snapshot⟩ ∈ before) ∧
    ∀ key, s₁.routes.refs key item.ip ≠ some item.gateway
  /-- What one of its own removals erases was in the snapshot, in an entry the request asked for. -/
  erased : ∀ before key ip gateway r after s₁ s₂, ls = before ++
    .own ⟨.remove key ip gateway, r⟩ :: after →
    Schedule s before s₁ → Happens s₁ (.own ⟨.remove key ip gateway, r⟩) s₂ →
    ∀ key' ip' metadata, s₁.routes.lookup key' ip' = some metadata →
      s₂.routes.lookup key' ip' = none →
      ∃ snapshot : List RouteEntry, .own ⟨.list, snapshot⟩ ∈ before ∧
        ∃ group ∈ snapshot, ∃ target ∈ group.targets,
        wanted (getRouteKey request) group.key = true ∧
        wanted (parameter request (text "ip") (text "target")) target.ip = true ∧
        target.ip = ip' ∧ target.gateway = metadata.gateway

variable {s s' : Service} {ls : List Label}

/-- **DELETE is honest among other requests**, whatever they and the worker do, whatever fails, and
whatever database the process found when it first started. -/
theorem routeDelete_honest (hquad : Canonical) {h₀ : Host} {past : List ProcessLabel}
    (hpast : Run (fun p l p' => l.Valid ∧ ProcessStep Env.any p l p') (.down h₀) past (.running s))
    (hrun : Schedule s ls s') (hcalls : Makes (routeDelete request) (calls ls) response) :
    HonestDeletion request s ls s' response := by
  have hline : s.routes.OneLine := oneLine_of_run hquad hpast
  rcases makes_routeDelete hcalls with ⟨hnone, hresponse⟩ |
    ⟨snapshot, rest, d, hes, hresponse, hloop⟩
  · refine ⟨fun item hitem => ?_, fun before key ip gateway r after s₁ s₂ hls => ?_⟩
    · rw [hresponse] at hitem
      cases hitem
    · have hmem : ⟨.remove key ip gateway, r⟩ ∈ calls ls := by simp [hls, calls, Label.call]
      rw [hnone] at hmem
      cases hmem
  · obtain ⟨first, last, s₁, s₂, rfl, hfirst, hlast, hothers, hlist, hafter⟩ :=
      schedule_split hrun hes
    -- the snapshot is the index of a state the process can get into
    have hsnapshot : snapshot = list s₁.routes ∧ s₂ = s₁ := by cases hlist; exact ⟨rfl, rfl⟩
    have hplain : ∀ group ∈ snapshot, ∀ target ∈ group.targets, 10 ∉ target.ip := by
      intro group hg target ht
      obtain ⟨metadata, hl, -⟩ := lookup_of_list (hsnapshot.1 ▸ hg) ht
      exact oneLine_of_others hquad hline hothers hfirst _ _ _ hl
    have htried := tried_of_snapshot hplain hloop
    constructor
    · intro item hitem hok
      obtain ⟨key', u, hmem⟩ := htried.results item (hresponse ▸ hitem) hok
      obtain ⟨ls₁, ls₂, t₁, t₂, rfl, h₁, hremove, h₂⟩ := schedule_at hafter (hlast.symm ▸ hmem)
      refine ⟨first ++ .own ⟨.list, snapshot⟩ :: (ls₁ ++ [.own ⟨.remove key' item.ip item.gateway,
        .ok u⟩]), ls₂, t₂, by simp, ?_, h₂, ⟨snapshot, by simp⟩, unreferenced_of_remove hremove⟩
      refine run_append_iff.mpr ⟨s₁, hothers, .cons ⟨trivial, hlist⟩ ?_⟩
      exact run_append_iff.mpr ⟨t₁, h₁, .cons ⟨trivial, hremove⟩ .nil⟩
    · intro before key ip gateway r after t₁ t₂ hls _ hremove key' ip' metadata hbefore hgone
      -- the removal comes after the snapshot
      have hcut : calls (before ++ .own ⟨.remove key ip gateway, r⟩ :: after) =
          ⟨.list, snapshot⟩ :: rest :=
        hls ▸ hes
      rw [calls, List.filterMap_append] at hcut
      cases hb : before.filterMap Label.call with
      | nil => rw [hb] at hcut; cases hcut
      | cons e es =>
        rw [hb] at hcut
        obtain ⟨rfl, hrest⟩ := List.cons.inj hcut
        obtain ⟨l, hl, hcall⟩ :=
          List.mem_filterMap.mp (hb ▸ List.mem_cons_self : (⟨.list, snapshot⟩ : ManagerEvent) ∈ _)
        have hmem : ⟨.remove key ip gateway, r⟩ ∈ rest := by rw [← hrest]; simp [Label.call]
        obtain ⟨group, hg, target, ht, hkey, hip, r', heq⟩ := htried.calls _ hmem
        cases heq
        obtain ⟨rfl, hgateway⟩ := erased_of_remove hremove hbefore hgone
        cases l with
        | other l => cases hcall
        | own e =>
          obtain rfl := Option.some.inj hcall
          exact ⟨snapshot, hl, group, hg, target, ht, hkey, hip, rfl, hgateway.symm⟩

/-- What a route manager answers that holds `routes` and does all it is asked for. -/
def willing (routes : List RouteEntry) : (c : ManagerCall) → c.Reply
  | .getGlobalRoute => ([], false)
  | .list => routes
  | .add _ _ _ _ | .remove _ _ _ => .ok ()

omit [Platform] in
/-- Two keys share a route, and the request deletes the route while somebody adds another one. -/
theorem routeDelete_honest_shared : ∃ (s s' : Service) (ls : List Label) (response : HttpResponse),
    (calls ls).length = 2 ∧
      (response.deleted.map fun item => (item.key, item.success)) =
        [(text "a", true), (text "b", true)] ∧
      @HonestDeletion quadPlatform
        ⟨fun name => if name = text "ip" then some (text "10.0.0.1") else none⟩ s ls s'
        response := by
  let _ := quadPlatform
  let request : HttpRequest :=
    ⟨fun name => if name = text "ip" then some (text "10.0.0.1") else none⟩
  let share := firstAddition.2.play (.add (text "10.0.0.1") (text "10.0.0.254") (text "b") 0) []
  let other := share.2.play (.add (text "10.0.0.2") (text "10.0.0.254") (text "c") 0) []
  let removal := other.2.play (.remove (text "a") (text "10.0.0.1") (text "10.0.0.254")) []
  let ls : List Label := [.own ⟨.list, list share.2.routes⟩, .other other.1,
    .own ⟨.remove (text "a") (text "10.0.0.1") (text "10.0.0.254"), .ok ()⟩]
  let out := (routeDelete request).play (fun (_ : Unit) (_ : Unit) c =>
    (willing (list share.2.routes) c, ())) () [] ()
  obtain ⟨past, hpast⟩ := run_firstAddition
  have hpast : Run (fun p l p' => ProcessLabel.Valid l ∧ ProcessStep Env.any p l p')
      (.down bareHost)
      (past ++ [.done share.1]) (.running share.2) := by
    refine run_append_iff.mpr ⟨_, hpast,
      .cons ⟨fun o ho => ?_, .done (firstAddition.2.opStep_play _ _)⟩ .nil⟩
    obtain rfl := Option.some.inj ho
    decide
  have hremoved : removal.1.result = .ok () := by decide
  have hvalid : other.1.op.Valid := by decide
  have hrun : Schedule share.2 ls removal.2 :=
    .cons ⟨trivial, .list⟩ (.cons ⟨hvalid, .other (share.2.opStep_play _ _)⟩
      (.cons ⟨trivial, .remove (Service.opStep_play_of_result hremoved)⟩ .nil))
  have hmakes : Makes (routeDelete request) out.1 out.2.1 :=
    exec_play (fun _ _ _ => trivial) () _ [] ()
  have hcalls : Makes (routeDelete request) (calls ls) out.2.1 := hmakes
  exact ⟨share.2, removal.2, ls, out.2.1, rfl, by decide,
    routeDelete_honest (fun _ => rfl) hpast hrun hcalls⟩

end IpRouter.RouteService
