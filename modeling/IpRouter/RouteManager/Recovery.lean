import IpRouter.RouteManager.Reachable
import IpRouter.RouteManager.Sweeping
import IpRouter.Theory.Interp

/-!
# What a start loses

Two ways in which records and routes get lost around a start.

The loader drops expired records from the file whether or not it could delete
their system routes. `tracked_iff` says exactly when every route named by the old
file that is still in the system is still known: unless the new file was written
and the deletion of such a route failed.

When a route cannot be restored, the loader leaves the file alone so that the
next start tries again; but the index does not hold the record, and every later
save writes the file from the index. `record_kept_of_run` says how long the record
stays: as long as no save succeeds, or the index holds the record after all.
-/

namespace IpRouter.RouteManager

open Theory

variable {h h' : Host} {es : List HostEvent} {m : Memory} {content : Bytes}

/-! ### Routes of expired records -/

/-- **Every route the old file names and the system holds is known**: the index refers to it,
or the new file names it. -/
def Tracked [Platform] (content : Bytes) (m : Routes) (h' : Host) : Prop :=
  ∀ it ∈ parseRoutes content, h'.kernel it.ip = some it.gateway →
    (∃ key, m.refs key it.ip = some it.gateway) ∨
      ∃ content', h'.routesFile = some content' ∧ ∃ it' ∈ parseRoutes content', it'.ip = it.ip ∧
        it'.gateway = it.gateway

/-- Every route that the start has to clean up was deleted: the routes in the system whose target is
named by expired records only. -/
def CleanedUp [Platform] (content : Bytes) (h : Host) (es : List HostEvent) : Prop :=
  ∀ now, ⟨.time, now⟩ ∈ es → ∀ it ∈ parseRoutes content,
    (∀ it' ∈ parseRoutes content, it'.ip = it.ip → it'.expired now = true) →
      h.kernel it.ip = some it.gateway →
      ∃ u, ⟨.deleteSystemRoute it.ip it.gateway, .ok u⟩ ∈ es

variable {now : ℤ} {h₀ h₁ h₂ : Host} {s : Restore} {es₁ es₂ : List HostEvent}
  {saved : List SavedRoute}

/-- The target of a record that has not expired is in the index when no route was refused. -/
theorem Passed.refs_of_active (hp : Passed now h₀ saved es₁ s h₁) {ip gateway : Bytes}
    (hactive : s.active.find ip = some gateway) :
    ∃ key, s.installed.refs key ip = some gateway := by
  obtain ⟨key, metadata, hl⟩ := hp.active ip gateway hactive
  have hgw := (hp.installed key ip metadata hl).1
  exact ⟨key, Routes.refs_eq_some.mpr ⟨metadata, hl, Option.some.inj (hgw.symm.trans hactive)⟩⟩

/-- A target named by expired records only is not active. -/
theorem Passed.idle_of_expired (hp : Passed now h₀ saved es₁ s h₁) {ip : Bytes}
    (hexpired : ∀ it ∈ saved, it.ip = ip → it.expired now = true) :
    s.active.find ip = none ∧ ∀ key, s.installed.lookup key ip = none := by
  have hnone : ∀ key, s.installed.lookup key ip = none := by
    intro key
    cases hl : s.installed.lookup key ip with
    | none => rfl
    | some metadata =>
      obtain ⟨-, it, hmem, halive, -, hip, -⟩ := hp.installed key ip metadata hl
      rw [hexpired it hmem hip] at halive
      cases halive
  refine ⟨?_, hnone⟩
  cases hactive : s.active.find ip with
  | none => rfl
  | some gateway =>
    obtain ⟨key, metadata, hl⟩ := hp.active ip gateway hactive
    rw [hnone key] at hl
    cases hl

variable [Platform]

/-- What the file written from an index names, the index refers to. -/
theorem refs_of_mem_parseRoutes (hquad : Canonical) {m : Routes} (hm : m.Plain) {it : SavedRoute}
    (hit : it ∈ parseRoutes (encodeRoutes m)) : ∃ key, m.refs key it.ip = some it.gateway := by
  rw [parseRoutes_encodeRoutes hquad hm] at hit
  obtain ⟨it₀, hmem, hparse⟩ := List.mem_filterMap.mp hit
  obtain ⟨metadata, hl, heq⟩ := Routes.mem_savedRoutes_iff.mp hmem
  obtain ⟨-, -, hip, hgw⟩ := plain_of_parseRecord_line hquad (heq ▸ hm _ _ _ hl) hparse
  refine ⟨it₀.key, ?_⟩
  rw [hip, hgw]
  exact Routes.refs_eq_some.mpr ⟨metadata, hl, by rw [heq]; rfl⟩

/-- A start that does not replace the file loses track of nothing. -/
theorem tracked_of_file {m : Routes} (hfile : h'.routesFile = some content) :
    Tracked content m h' :=
  fun it hit _ => Or.inr ⟨content, hfile, it, hit, rfl, rfl⟩

/-- A start that replaces the file keeps track exactly when it cleaned up. -/
theorem tracked_iff_of_saved (hquad : Canonical) (hplain : PlainFile content)
    (hpassed : Passed now { h with clock := now } (parseRoutes content) es₁ s h₁)
    (hswept : Swept s.active h₁ s.expired.keys es₂ h₂) (hcomplete : s.restoreFailed = false)
    (hfile : h'.routesFile = some (encodeRoutes s.installed)) (hkernel : h'.kernel = h₂.kernel)
    (htime : ∀ now', ⟨.time, now'⟩ ∈ es ↔ now' = now)
    (hdelete : ∀ ip gateway u,
      ⟨.deleteSystemRoute ip gateway, .ok u⟩ ∈ es ↔ ⟨.deleteSystemRoute ip gateway, .ok u⟩ ∈ es₂) :
    Tracked content s.installed h' ↔ CleanedUp content h es := by
  have hkernel₁ : ∀ ip, h₁.kernel ip = (s.active.find ip).or (h.kernel ip) :=
    fun ip => by rw [hpassed.host]
  have hnamed : ∀ content', h'.routesFile = some content' → ∀ it' ∈ parseRoutes content',
      ∃ key, s.installed.refs key it'.ip = some it'.gateway := by
    intro content' hc it' hit'
    obtain rfl := Option.some.inj (hfile.symm.trans hc)
    exact refs_of_mem_parseRoutes hquad (hpassed.plain hplain) hit'
  constructor
  · intro htracked now' hnow' it hit hexpired hthere
    obtain rfl := (htime now').mp hnow'
    obtain ⟨hidle, hnone⟩ := hpassed.idle_of_expired hexpired
    rcases hswept.kept it.ip it.gateway
      (by rw [hkernel₁, hidle, Option.none_or]; exact hthere) with hkept | ⟨u, hu⟩
    · -- the route is still there, and nothing refers to it
      have hunknown : ¬ ∃ key, s.installed.refs key it.ip = some it.gateway := by
        rintro ⟨key, hrefs⟩
        rw [Routes.refs_eq_none.mpr (hnone key)] at hrefs
        cases hrefs
      rcases htracked it hit (by rw [hkernel]; exact hkept) with hrefs |
        ⟨content', hc, it', hit', hip, hgw⟩
      · exact absurd hrefs hunknown
      · exact absurd (hip ▸ hgw ▸ hnamed content' hc it' hit') hunknown
    · exact ⟨u, (hdelete _ _ _).mpr hu⟩
  · intro hcleaned it hit hthere
    rw [hkernel] at hthere
    obtain ⟨hbefore, hundeleted⟩ := hswept.left it.ip it.gateway hthere
    cases hactive : s.active.find it.ip with
    | some gateway =>
      rw [hkernel₁, hactive, Option.some_or] at hbefore
      obtain rfl := Option.some.inj hbefore
      exact Or.inl (hpassed.refs_of_active hactive)
    | none =>
      rw [hkernel₁, hactive, Option.none_or] at hbefore
      -- no route was refused, so the target is named by expired records only
      have hexpired : ∀ it' ∈ parseRoutes content, it'.ip = it.ip → it'.expired now = true := by
        intro it' hit' hip
        by_contra halive
        rcases hpassed.complete it' hit' (by simpa using halive) with ⟨gateway, hg, -⟩ | hf
        · rw [hip, hactive] at hg
          cases hg
        · have hrefused := hpassed.restoreFailed.mpr ⟨_, hf⟩
          rw [hcomplete] at hrefused
          cases hrefused
      obtain ⟨u, hu⟩ := hcleaned now ((htime now).mpr rfl) it hit hexpired hbefore
      exact absurd ((hdelete _ _ _).mp hu) (hundeleted u)

/-- **A start keeps track of the routes it owns** exactly when it did not replace the file, or it
deleted every route it had to clean up. -/
theorem tracked_iff (hquad : Canonical) (hfile : h.routesFile = some content)
    (hplain : PlainFile content) (hrun : Exec Host.Answers start h es m h') :
    Tracked content m.installedRoutes h' ↔ Unsaved es ∨ CleanedUp content h es := by
  have hfiles : ∀ c, h.routesFile = some c → PlainFile c :=
    fun c hc => Option.some.inj (hfile.symm.trans hc) ▸ hplain
  obtain ⟨reply, es', e, rfl, hload⟩ := exec_start hquad hfiles hrun
  generalize hr : (m.installedRoutes, e) = r at hload
  cases hload with
  | absent hnone => rw [hfile] at hnone; cases hnone
  | unread hfailed =>
    refine iff_of_true (tracked_of_file hfile) (Or.inl fun saved hmem => ?_)
    simp only [List.mem_cons, List.not_mem_nil, or_false] at hmem
    rcases hmem with heq | heq <;> cases heq
  | @incomplete content' e now s es₁ es₂ h₁ _ hc hpassed hswept hfailed =>
    have hfile' : h'.routesFile = some content := (hswept.routesFile hpassed).trans hfile
    refine iff_of_true (tracked_of_file hfile') (Or.inl fun saved hmem => ?_)
    simp only [List.mem_cons, List.mem_append] at hmem
    rcases hmem with heq | heq | heq | hmem | hmem
    · cases heq
    · cases heq
    · cases heq
    · exact absurd hmem (hpassed.notMem fun _ _ _ h => by cases h)
    · exact absurd hmem (hswept.notMem fun _ _ _ h => by cases h)
  | @rewritten content' now s es₁ es₂ fault h₁ h₂ _ hc hpassed hswept hcomplete hsave =>
    obtain rfl := Option.some.inj (hfile.symm.trans hc)
    rw [(Prod.mk.inj hr).1]
    cases fault with
    | some f =>
      obtain rfl := hsave
      have hfile' : h'.routesFile = some content := (hswept.routesFile hpassed).trans hfile
      refine iff_of_true (tracked_of_file hfile') (Or.inl fun saved hmem => ?_)
      simp only [List.mem_cons, List.mem_append, List.not_mem_nil, or_false] at hmem
      rcases hmem with heq | heq | heq | hmem | hmem | heq
      · cases heq
      · cases heq
      · cases heq
      · exact absurd hmem (hpassed.notMem fun _ _ _ h => by cases h)
      · exact absurd hmem (hswept.notMem fun _ _ _ h => by cases h)
      · cases heq
    | none =>
      obtain rfl := hsave
      have hsaved : ¬ Unsaved
          (⟨.readGlobal, reply⟩ :: ⟨.readRoutes, .content content⟩ :: ⟨.time, now⟩ ::
          (es₁ ++ (es₂ ++ [⟨.replaceRoutes (encodeRoutes s.installed), none⟩]))) :=
        fun hnot => hnot (encodeRoutes s.installed) (by simp)
      rw [or_iff_right hsaved]
      refine tracked_iff_of_saved hquad hplain hpassed hswept hcomplete rfl rfl
        (fun now' => ⟨?_, ?_⟩) ?_
      · intro hmem
        simp only [List.mem_cons, List.mem_append, List.not_mem_nil, or_false] at hmem
        rcases hmem with heq | heq | heq | hmem | hmem | heq
        · cases heq
        · cases heq
        · cases heq; rfl
        · exact absurd hmem (hpassed.notMem fun _ _ _ h => by cases h)
        · exact absurd hmem (hswept.notMem fun _ _ _ h => by cases h)
        · cases heq
      · rintro rfl
        simp
      · intro ip gateway u
        constructor
        · intro hmem
          simp only [List.mem_cons, List.mem_append, List.not_mem_nil, or_false] at hmem
          rcases hmem with heq | heq | heq | hmem | hmem | heq
          · cases heq
          · cases heq
          · cases heq
          · exact absurd hmem (hpassed.notMem fun _ _ _ h => by cases h)
          · exact hmem
          · cases heq
        · intro hmem
          simp [hmem]

/-- A database with one record. -/
def sampleRecord : SavedRoute := ⟨text "a", text "10.0.0.1", text "10.0.0.254", 60, 100⟩

/-- The file it is kept in. -/
def sampleFile : Bytes := routesHeader ++ 10 :: (sampleRecord.line ++ [10])

omit [Platform] in
theorem parseRoutes_sampleFile : @parseRoutes quadPlatform sampleFile = [sampleRecord] := by decide

omit [Platform] in
theorem plainFile_sampleFile : @PlainFile quadPlatform sampleFile := by
  let _ := quadPlatform
  intro it hit
  rw [parseRoutes_sampleFile, List.mem_singleton] at hit
  subst hit
  exact ⟨by decide, by decide, by decide⟩

/-- A host with that file and the route of its record. -/
def sampleHost : Host :=
  ⟨some sampleFile, none, fun ip => if ip = text "10.0.0.1" then
    some (text "10.0.0.254") else none, 0⟩

omit [Platform] in
/-- The record has expired, its route cannot be deleted, and the new file does not name it any
more. -/
theorem not_tracked : ¬ ∀ (h h' : Host) (m : Memory) (es : List HostEvent) (content : Bytes),
    h.routesFile = some content → @PlainFile quadPlatform content →
      Exec Host.Answers (@start quadPlatform) h es m h' →
      @Tracked quadPlatform content m.installedRoutes h' := by
  let _ := quadPlatform
  intro hclaim
  let out := sampleHost.playStart [{}, {}, { now := 200 }, { ok := false }, {}]
  have htracked : Tracked sampleFile out.2.routes out.2.host :=
    hclaim sampleHost _ _ _ sampleFile rfl plainFile_sampleFile (sampleHost.exec_playStart _)
  have hmem : sampleRecord ∈ parseRoutes sampleFile := by
    rw [parseRoutes_sampleFile]; exact List.mem_singleton_self _
  have hempty : out.2.routes = OrdMap.empty := by decide
  have hfile : out.2.host.routesFile = some (routesHeader ++ [10]) := by decide
  have hnothing : parseRoutes (routesHeader ++ [10]) = [] := by decide
  rcases htracked sampleRecord hmem (by decide) with ⟨key, hrefs⟩ | ⟨content', hc, it', hit', -⟩
  · rw [hempty] at hrefs
    cases hrefs
  · obtain rfl := Option.some.inj (hfile.symm.trans hc)
    rw [hnothing] at hit'
    cases hit'

omit [Platform] in
/-- Neither can the file be written: the record stays where it is. -/
theorem tracked_iff_unsaved :
    ∃ (m : Routes) (h' : Host), h'.kernel sampleRecord.ip = some sampleRecord.gateway ∧
      m = OrdMap.empty ∧ @Tracked quadPlatform sampleFile m h' := by
  let _ := quadPlatform
  have hrun := sampleHost.exec_playStart [{}, {}, { now := 200 }, { ok := false }, { ok := false }]
  exact ⟨_, _, by decide, by decide,
    (tracked_iff (fun _ => rfl) rfl plainFile_sampleFile hrun).mpr (Or.inl (by decide))⟩

/-! ### Records that could not be restored -/

/-- The index holds what a record says. -/
def Routes.Holds (m : Routes) (r : SavedRoute) : Prop :=
  ∃ metadata, m.lookup r.key r.ip = some metadata ∧ savedRoute r.key r.ip metadata = r

/-- Whether an operation names a target. -/
def Op.names (ip : Bytes) : Op → Bool
  | .add destination _ _ _ => destination = ip
  | .remove _ destination _ => destination = ip
  | .removeSystem destination _ => destination = ip
  | .expire => false
  | .setGlobalRoute _ _ => false

/-- A pass of the worker lets the reference of `r` be: it is not due, or every other key that
holds the target comes before and is due, so that the worker drops it first, and the system
does not delete the route. -/
def LetsBe (r : SavedRoute) (m : Routes) (es : List HostEvent) : Prop :=
  ∀ now, ⟨.time, now⟩ ∈ es →
    (∀ metadata, m.lookup r.key r.ip = some metadata → metadata.keep now = true) ∨
      ((∀ key metadata, key ≠ r.key → m.lookup key r.ip = some metadata → key < r.key ∧
        metadata.keep now = false) ∧
        ∀ u, ⟨.deleteSystemRoute r.ip r.gateway, .ok u⟩ ∉ es)

/-- **When a step keeps the record of `r` in the file**: it saves nothing, or the index holds the
record and the step, if it is a pass of the worker, lets it be. -/
def KeepsRecord (r : SavedRoute) (s : Service) (l : Done) : Prop :=
  Unsaved l.calls ∨ (s.routes.Holds r ∧ (l.op = .expire → LetsBe r s.routes l.calls))

/-- The database holds the record. -/
def OnDisk (r : SavedRoute) (h : Host) : Prop :=
  ∃ content, h.routesFile = some content ∧ r ∈ parseRoutes content

variable {r : SavedRoute}

/-- A line of the file is read whatever the other lines are. -/
theorem mem_parseRoutes_of_holds (hquad : Canonical) {m : Routes} (hr : r.Plain)
    (hrange : r.InRange) (hm : m.Holds r) :
    r ∈ parseRoutes (encodeRoutes m) := by
  obtain ⟨metadata, hl, heq⟩ := hm
  obtain ⟨before, after, hsplit⟩ :=
    List.append_of_mem (Routes.mem_savedRoutes_iff.mpr ⟨metadata, hl, heq.symm⟩)
  rw [Routes.encodeRoutes_eq, parseRoutes_header, hsplit, List.flatMap_append, List.flatMap_cons]
  have hline : ∀ before : List SavedRoute, r.line ∈
      getlines ((before.flatMap fun it => it.line ++ [10]) ++
      ((r.line ++ [10]) ++ after.flatMap fun it => it.line ++ [10])) := by
    intro before
    induction before with
    | nil =>
      rw [List.flatMap_nil, List.nil_append, List.append_assoc, List.singleton_append,
        getlines_append_newline (hr.newline hquad)]
      exact List.mem_cons_self
    | cons it before ih =>
      rw [List.flatMap_cons, List.append_assoc, List.append_assoc, List.singleton_append,
        getlines_append_cons]
      exact List.mem_append_right _ ih
  exact List.mem_filterMap.mpr ⟨r.line, hline before, parseRecord_line hquad hr hrange⟩

omit [Platform] in
theorem Routes.Holds.set {m : Routes} (hm : m.Holds r) {key ip : Bytes} (hip : ip ≠ r.ip)
    (metadata : RouteMetadata) :
    (m.set key ip metadata).Holds r := by
  obtain ⟨held, hl, heq⟩ := hm
  exact ⟨held, by rw [Routes.lookup_set, if_neg fun hk => hip hk.2.symm, hl], heq⟩

omit [Platform] in
theorem Routes.Holds.forget {m : Routes} (hm : m.Holds r) {destination : Bytes}
    (hip : destination ≠ r.ip) (gateway : Bytes) : (m.forget destination gateway).Holds r := by
  obtain ⟨held, hl, heq⟩ := hm
  exact ⟨held, by rw [Routes.lookup_forget, if_neg fun hk => hip hk.1.symm, hl], heq⟩

omit [Platform] in
/-- A pass of the worker keeps a record that is not due. -/
theorem Routes.Holds.sweep_keep {A : Answers Host HostCall HostCall.Reply}
    {m : Routes} (hm : m.Holds r) {keys : List Bytes} {changed : Bool} {swept : Sweep}
    (hkeep : ∀ metadata, m.lookup r.key r.ip = some metadata → metadata.keep now = true)
    (hrun : Exec A (Prog.loop (expireGroup now) keys ⟨m, changed⟩) h es swept h') :
    swept.installed.Holds r := by
  obtain ⟨metadata, hl, heq⟩ := hm
  replace hkeep := hkeep metadata hl
  refine ⟨metadata, ?_, heq⟩
  refine sweep_inv (I := fun _ s _ => s.installed.lookup r.key r.ip = some metadata) ?_ ?_ hl hrun
  · intro key ip _ s h _ s' h' hI ho
    by_cases hat : r.key = key ∧ r.ip = ip
    · obtain ⟨rfl, rfl⟩ := hat
      have hnot : ∀ metadata', s.installed.lookup r.key r.ip = some metadata' →
          metadata'.keep now = true := by
        intro metadata' hl'
        obtain rfl := Option.some.inj (hI.symm.trans hl')
        exact hkeep
      cases ho with
      | kept _ => exact hI
      | dropped found due _ _ | deleted found due _ _ | refused found due _ _ =>
        rw [hnot _ found] at due
        cases due
    · rw [ho.frame hat, hI]
  · intro key _ s h hI
    rwa [Routes.lookup_dropIfEmpty]

omit [Platform] in
/-- A pass of the worker keeps a record whose target no other key holds, when the system
does not delete the route. -/
theorem Routes.Holds.sweep_alone {A : Answers Host HostCall HostCall.Reply} {m : Routes}
    (hm : m.Holds r) (halone : ∀ key, key ≠ r.key → m.lookup key r.ip = none)
    {keys : List Bytes} {changed : Bool} {swept : Sweep}
    (hdelete : ∀ u, ⟨.deleteSystemRoute r.ip r.gateway, .ok u⟩ ∉ es)
    (hrun : Exec A (Prog.loop (expireGroup now) keys ⟨m, changed⟩) h es swept h') :
    swept.installed.Holds r := by
  have hinv := sweep_inv (I := fun es s _ =>
    (∀ u, ⟨.deleteSystemRoute r.ip r.gateway, .ok u⟩ ∉ es) → s.installed.Holds r ∧
    ∀ key, key ≠ r.key → s.installed.lookup key r.ip = none) ?_ ?_ (fun _ => ⟨hm, halone⟩) hrun
  · exact (hinv hdelete).1
  · intro key ip es s h es' s' h' hI ho hnone
    obtain ⟨⟨held, hl, heq⟩, halone⟩ := hI fun u hu => hnone u (List.mem_append_left _ hu)
    refine ⟨?_, fun key' hne => ?_⟩
    · by_cases hat : r.key = key ∧ r.ip = ip
      · obtain ⟨rfl, rfl⟩ := hat
        cases ho with
        | kept _ => exact ⟨held, hl, heq⟩
        | dropped found due ne used =>
          rw [halone _ ne] at used
          cases used
        | @deleted metadata' u _ found due alone route =>
          obtain rfl := Option.some.inj (hl.symm.trans found)
          refine absurd ?_ (hnone u)
          rw [← heq]
          exact List.mem_append_right _ (List.mem_singleton_self _)
        | @refused metadata' e _ found due alone route =>
          obtain rfl := Option.some.inj (hl.symm.trans found)
          exact ⟨{ held with lastAttempt := now }, by simp [Routes.lookup_set], heq⟩
      · exact ⟨held, by rw [ho.frame hat, hl], heq⟩
    · by_cases hat : key' = key ∧ r.ip = ip
      · obtain ⟨rfl, rfl⟩ := hat
        have hgone := halone key' hne
        cases ho with
        | kept _ => exact hgone
        | dropped found _ _ _ | deleted found _ _ _ | refused found _ _ _ =>
          rw [hgone] at found
          cases found
      · rw [ho.frame hat]
        exact halone key' hne
  · intro key _ s h hI hnone
    obtain ⟨⟨held, hl, heq⟩, halone⟩ := hI hnone
    refine ⟨⟨held, by rwa [Routes.lookup_dropIfEmpty], heq⟩, fun key' hne => ?_⟩
    rw [Routes.lookup_dropIfEmpty]
    exact halone key' hne

omit [Platform] in
/-- In the middle of a pass that has not come to the key of `r`, the due references of other
keys to its target are gone: the worker drops them without asking the system, because the key of
`r` holds the target too. -/
theorem MidSweep.alone {m : Routes} {h₀ : Host} {visited : Bytes → Bytes → Prop}
    {s : Routes} (hs : MidSweep now m h₀ visited es s h) {metadata : RouteMetadata}
    (hl : m.lookup r.key r.ip = some metadata) (hnew : ¬ visited r.key r.ip)
    (hothers : ∀ key metadata, key ≠ r.key → m.lookup key r.ip = some metadata →
      visited key r.ip ∧ metadata.keep now = false) :
    s.lookup r.key r.ip = some metadata ∧ ∀ key, key ≠ r.key → s.lookup key r.ip = none := by
  have hstill : s.lookup r.key r.ip = some metadata := (hs.unvisited _ _ hnew).trans hl
  refine ⟨hstill, fun key hne => ?_⟩
  by_contra hheld
  obtain ⟨metadata', hl'⟩ := Option.ne_none_iff_exists'.mp hheld
  obtain ⟨old, attempt, hold, rfl⟩ := hs.origin _ _ _ hl'
  obtain ⟨hvisited, hdue⟩ := hothers key old hne hold
  obtain ⟨e, he⟩ := hs.left key r.ip old hvisited hold hdue hheld
  exact hnew (hs.settled _ he r.key r.ip (decide_eq_true rfl)
    (by rw [hstill]; exact Option.some_ne_none _))

omit [Platform] in
/-- A pass of the worker that lets a reference be saves an index that holds it. -/
theorem Routes.Holds.sweep {m : Routes} (hm : m.Holds r) (calls : List HostEvent) {swept : Sweep}
    (htime : ⟨.time, now⟩ ∈ calls) (hes : es ⊆ calls) (hlets : LetsBe r m calls)
    (hrun : Exec Host.Answers (Prog.loop (expireGroup now) m.keys ⟨m, false⟩) h es swept h') :
    swept.installed.Holds r := by
  rcases hlets now htime with hkeep | ⟨hothers, hdelete⟩
  · exact hm.sweep_keep hkeep hrun
  -- due: when the worker comes to the key of `r`, no other key holds the target any more
  obtain ⟨metadata, hl, heq⟩ := hm
  obtain ⟨group, hgroup, -⟩ := Option.bind_eq_some_iff.mp hl
  obtain ⟨before, after, hkeys⟩ := List.append_of_mem (OrdMap.mem_keys_iff.mpr ⟨group, hgroup⟩)
  have hsorted : (before ++ r.key :: after).Pairwise (· < ·) := hkeys ▸ OrdMap.pairwise_keys m
  obtain ⟨-, hafter, hbefore⟩ := List.pairwise_append.mp hsorted
  have hnew : r.key ∉ before := fun hmem => lt_irrefl _ (hbefore _ hmem _ List.mem_cons_self)
  rw [hkeys, Prog.loop_append] at hrun
  obtain ⟨s, h₁, es₁, es₂, rfl, hfirst, hrest⟩ := exec_do_iff.mp hrun
  have hmid := midSweep_of_keys (List.nodup_append.mp (hkeys ▸ OrdMap.nodup_keys m)).1 hfirst
  obtain ⟨hstill, halone⟩ := hmid.alone hl hnew fun key metadata' hne hl' => by
    obtain ⟨hlt, hdue⟩ := hothers key metadata' hne hl'
    obtain ⟨group', hgroup', -⟩ := Option.bind_eq_some_iff.mp hl'
    have hmem : key ∈ before ++ r.key :: after := hkeys ▸ OrdMap.mem_keys_iff.mpr ⟨group', hgroup'⟩
    refine ⟨?_, hdue⟩
    rcases List.mem_append.mp hmem with hmem | hmem
    · exact hmem
    · rcases List.mem_cons.mp hmem with rfl | hmem
      · exact absurd rfl hne
      · exact absurd hlt ((List.pairwise_cons.mp hafter).1 key hmem).asymm
  have hholds : s.installed.Holds r := ⟨metadata, hstill, heq⟩
  exact hholds.sweep_alone halone (fun u hu => hdelete u (hes (List.mem_append_right _ hu))) hrest

/-- **What a step saves holds the record**, when the index holds it and the step does not name
its target and lets it be. -/
theorem holds_of_saved {s s' : Service} {l : Done}
    (hm : s.routes.Holds r) (hnames : l.op.names r.ip = false)
    (hlets : l.op = .expire → LetsBe r s.routes l.calls) (hstep : OpStep Env.any s l s')
    {content : Bytes} (hmem : ⟨.replaceRoutes content, none⟩ ∈ l.calls) :
    ∃ m : Routes, content = encodeRoutes m ∧ m.Holds r := by
  refine (hstep.keeps (P := fun m => m.Holds r) hm ?_ ?_ ?_).2 content hmem
  · intro destination gateway key ttl now hop _ _ _
    rw [hop] at hnames
    exact hm.set (of_decide_eq_false hnames) _
  · rintro destination gateway (⟨key, hop⟩ | hop) <;> rw [hop] at hnames <;>
      exact hm.forget (of_decide_eq_false hnames) gateway
  · intro hop now h es swept h' htime hes hrun
    exact hm.sweep l.calls htime hes (hlets hop) hrun

/-- **A step that keeps a record leaves it on disk.** -/
theorem onDisk_of_step (hquad : Canonical) {s s' : Service} {l : Done} (hr : r.Plain)
    (hrange : r.InRange) (hdisk : OnDisk r s.host) (hnames : l.op.names r.ip = false)
    (hkeeps : KeepsRecord r s l) (hstep : OpStep Env.any s l s') :
    OnDisk r s'.host := by
  refine Exec.inv (I := OnDisk r) hstep (fun e he h h' hI hA =>
    file_exists_inv (fun content heq => ?_) hI hA) hdisk
  subst heq
  rcases hkeeps with hunsaved | ⟨hm, hlets⟩
  · exact absurd he (hunsaved content)
  · obtain ⟨m, rfl, hm⟩ := holds_of_saved hm hnames hlets hstep he
    exact mem_parseRoutes_of_holds hquad hr hrange hm

/-- A start that could not restore a route leaves the file alone. -/
theorem file_of_failed_start (hquad : Canonical) (hfile : h.routesFile = some content)
    (hplain : PlainFile content) {ip : Bytes} (hfailed : AddFailed ip es)
    (hrun : Exec Host.Answers start h es m h') :
    h'.routesFile = some content := by
  have hfiles : ∀ c, h.routesFile = some c → PlainFile c :=
    fun c hc => Option.some.inj (hfile.symm.trans hc) ▸ hplain
  obtain ⟨reply, es', e, rfl, hload⟩ := exec_start hquad hfiles hrun
  obtain ⟨gateway, e, hmem⟩ := hfailed
  generalize hr : (m.installedRoutes, _) = r at hload
  cases hload with
  | absent hnone => rw [hfile] at hnone; cases hnone
  | unread _ => exact hfile
  | incomplete _ hpassed hswept _ => exact (hswept.routesFile hpassed).trans hfile
  | @rewritten _ _ _ es₁ es₂ fault _ _ _ _ hpassed hswept hcomplete _ =>
    simp only [List.mem_cons, List.mem_append, List.not_mem_nil, or_false] at hmem
    rcases hmem with heq | heq | heq | hmem | hmem | heq
    · cases heq
    · cases heq
    · cases heq
    · rw [hpassed.restoreFailed.mpr ⟨ip, gateway, e, hmem⟩] at hcomplete
      cases hcomplete
    · exact absurd hmem (hswept.notMem fun _ _ _ h => by cases h)
    · cases heq

/-- **A record that could not be restored stays in the database** in every run after the start whose
steps do not name its target and keep it. -/
theorem record_kept_of_run (hquad : Canonical) {h₀ : Host} (hfile : h₀.routesFile = some content)
    (hplain : PlainFile content) (hr : r ∈ parseRoutes content) {s s' : Service}
    {ls : List Done} {e : Bytes} (hstart : Exec Host.Answers start h₀ es s.memory s.host)
    (hfailed : ⟨.addSystemRoute r.ip r.gateway, .error e⟩ ∈ es)
    (hrun : Run (fun s l s' => OpStep Env.any s l s' ∧ l.op.names r.ip = false ∧
      KeepsRecord r s l) s ls s') :
    OnDisk r s'.host := by
  have hrange : r.InRange := by
    obtain ⟨line, -, hline⟩ := List.mem_filterMap.mp hr
    split_ifs at hline
    exact inRange_of_parseRecord hline
  have h₀ : OnDisk r s.host :=
    ⟨content, file_of_failed_start hquad hfile hplain ⟨_, _, hfailed⟩ hstart, hr⟩
  exact hrun.inv (I := fun s => OnDisk r s.host)
    (fun s l s' hI hstep =>
      onDisk_of_step hquad (hplain r hr) hrange hI hstep.2.1 hstep.2.2 hstep.1) h₀

omit [Platform] in
/-- The next addition of another target writes the file without the record. -/
theorem record_not_kept : ¬ ∀ (h₀ : Host) (content : Bytes) (r : SavedRoute) (es : List HostEvent)
    (e : Bytes) (s s' : Service) (ls : List Done),
      h₀.routesFile = some content → @PlainFile quadPlatform content →
      r ∈ @parseRoutes quadPlatform content →
      (∀ it ∈ @parseRoutes quadPlatform content, it.ip = r.ip → it.gateway = r.gateway) →
      Exec Host.Answers (@start quadPlatform) h₀ es s.memory s.host →
      (∀ now, ⟨.time, now⟩ ∈ es → r.expired now = false) →
      ⟨.addSystemRoute r.ip r.gateway, .error e⟩ ∈ es →
      Run (fun s l s' => @OpStep quadPlatform Env.any s l s' ∧ l.op.names r.ip = false) s ls s' →
      @OnDisk quadPlatform r s'.host := by
  let _ := quadPlatform
  intro hclaim
  let out := sampleHost.playStart [{}, {}, { now := 50 }, { ok := false }]
  let step := out.2.play (.add (text "10.0.0.2") (text "10.0.0.254") (text "b") 0) []
  let other : SavedRoute := ⟨text "b", text "10.0.0.2", text "10.0.0.254", 0, 0⟩
  have hmem : sampleRecord ∈ parseRoutes sampleFile := by
    rw [parseRoutes_sampleFile]; exact List.mem_singleton_self _
  have hrefused : ⟨.addSystemRoute sampleRecord.ip sampleRecord.gateway,
      .error (text "change route failed")⟩ ∈ out.1 :=
    List.mem_of_getLast? rfl
  have halone : ∀ it ∈ parseRoutes sampleFile, it.ip = sampleRecord.ip →
      it.gateway = sampleRecord.gateway := by
    rw [parseRoutes_sampleFile]
    decide
  have halive : ∀ now, ⟨.time, now⟩ ∈ out.1 → sampleRecord.expired now = false := by
    intro now hnow
    rw [show out.1 = [⟨.readGlobal, .absent⟩, ⟨.readRoutes, .content sampleFile⟩, ⟨.time, (50 : ℤ)⟩,
      ⟨.addSystemRoute sampleRecord.ip sampleRecord.gateway,
        .error (text "change route failed")⟩] from rfl] at hnow
    simp only [List.mem_cons, List.not_mem_nil, or_false] at hnow
    rcases hnow with heq | heq | heq | heq <;> cases heq
    decide
  have hrun : Run (fun s l s' => OpStep Env.any s l s' ∧ l.op.names sampleRecord.ip = false) out.2
      [step.1] step.2 :=
    .cons ⟨out.2.opStep_play _ _, by decide⟩ .nil
  obtain ⟨content, hfile, hin⟩ := hclaim sampleHost sampleFile sampleRecord _ _ _ _ _ rfl
    plainFile_sampleFile hmem halone
    (sampleHost.exec_playStart _) halive hrefused hrun
  obtain rfl : routesHeader ++ 10 :: (other.line ++ [10]) = content :=
    Option.some.inj (Eq.trans (by decide) hfile)
  rw [show parseRoutes (routesHeader ++ 10 :: (other.line ++ [10])) = [other] by decide] at hin
  exact absurd (List.mem_singleton.mp hin) (by decide)

section Sample

omit [Platform]

/-- A record that another line repeats, and that a key before it shares its target with. -/
def sharedRecord : SavedRoute := ⟨text "b", text "10.0.0.1", text "10.0.0.254", 60, 100⟩

/-- The file they are kept in. -/
def sharedFile : Bytes :=
  routesHeader ++ 10 ::
    (sharedRecord.line ++ 10 :: (sharedRecord.line ++ 10 :: (sampleRecord.line ++ [10])))

theorem parseRoutes_sharedFile :
    @parseRoutes quadPlatform sharedFile = [sharedRecord, sharedRecord, sampleRecord] := by
  decide +kernel

theorem plainFile_sharedFile : @PlainFile quadPlatform sharedFile := by
  let _ := quadPlatform
  intro it hit
  rw [parseRoutes_sharedFile] at hit
  simp only [List.mem_cons, List.not_mem_nil, or_false, or_self_left] at hit
  rcases hit with rfl | rfl <;> exact ⟨by decide, by decide, by decide⟩

/-- The start: the first addition of the route fails, the one for the second line succeeds. -/
def sharedStart : List HostEvent × Service :=
  let _ := quadPlatform
  Host.playStart ⟨some sharedFile, none, fun _ => none, 0⟩
    [{}, {}, { now := 50 }, { ok := false }, {}]

/-- The next addition cannot be saved. -/
def sharedAddition : Done × Service :=
  let _ := quadPlatform
  sharedStart.2.play (.add (text "10.0.0.2") (text "10.0.0.254") (text "c") 0) [{}, { ok := false }]

/-- Then both references are due: the worker drops the first one, and the system
does not delete the route. -/
def sharedSweep : Done × Service :=
  let _ := quadPlatform
  sharedAddition.2.play .expire [{ now := 200 }, { ok := false }, {}]

theorem calls_sharedSweep : sharedSweep.1.calls = [⟨.time, (200 : ℤ)⟩,
    ⟨.deleteSystemRoute (text "10.0.0.1") (text "10.0.0.254"), .error (text "change route failed")⟩,
    ⟨.replaceRoutes (routesHeader ++ 10 :: (sharedRecord.line ++ [10])), none⟩] := by
  rfl

theorem letsBe_sharedSweep : LetsBe sharedRecord sharedAddition.2.routes sharedSweep.1.calls := by
  have hroutes : sharedAddition.2.routes =
      Routes.set (Routes.set OrdMap.empty (text "b") (text "10.0.0.1")
      ⟨text "10.0.0.254", 60, 100, 0⟩) (text "a") (text "10.0.0.1")
          ⟨text "10.0.0.254", 60, 100, 0⟩ := by
    decide +kernel
  rw [calls_sharedSweep, hroutes]
  intro now hnow
  simp only [List.mem_cons, List.not_mem_nil, or_false] at hnow
  rcases hnow with heq | heq | heq <;> cases heq
  refine Or.inr ⟨fun key metadata hne hl => ?_, fun u hu => ?_⟩
  · simp only [Routes.lookup_set] at hl
    split_ifs at hl with ha hb
    · obtain rfl := Option.some.inj hl
      exact ⟨ha.1 ▸ by decide, by decide⟩
    · exact absurd hb.1 hne
    · cases hl
  · simp only [List.mem_cons, List.not_mem_nil, or_false] at hu
    rcases hu with heq | heq | heq <;> cases heq

theorem steps_shared :
    @OpStep quadPlatform Env.any sharedStart.2 sharedAddition.1 sharedAddition.2 ∧
    @OpStep quadPlatform Env.any sharedAddition.2 sharedSweep.1 sharedSweep.2 :=
  ⟨@Service.opStep_play quadPlatform sharedStart.2
    (.add (text "10.0.0.2") (text "10.0.0.254") (text "c") 0)
    [{}, { ok := false }], @Service.opStep_play quadPlatform sharedAddition.2 .expire
      [{ now := 200 }, { ok := false }, {}]⟩

theorem refused_sharedStart :
    ⟨.addSystemRoute sharedRecord.ip sharedRecord.gateway, .error (text "change route failed")⟩ ∈
    sharedStart.1 := by
  have hcalls : sharedStart.1 = [⟨.readGlobal, .absent⟩, ⟨.readRoutes, .content sharedFile⟩,
      ⟨.time, (50 : ℤ)⟩,
      ⟨.addSystemRoute sharedRecord.ip sharedRecord.gateway, .error (text "change route failed")⟩,
      ⟨.addSystemRoute sharedRecord.ip sharedRecord.gateway, .ok ()⟩] := rfl
  rw [hcalls]
  simp

/-- The file is written by the worker, and the record is still in it. -/
theorem record_kept_of_run_swept : ¬ Unsaved sharedSweep.1.calls ∧
    @OnDisk quadPlatform sharedRecord sharedSweep.2.host := by
  let _ := quadPlatform
  have hmem : sharedRecord ∈ parseRoutes sharedFile := by
    rw [parseRoutes_sharedFile]; exact List.mem_cons_self
  have hheld : sharedAddition.2.routes.Holds sharedRecord :=
    ⟨⟨text "10.0.0.254", 60, 100, 0⟩, by decide +kernel, rfl⟩
  have hunsaved : Unsaved sharedAddition.1.calls := by decide +kernel
  have hnames : sharedAddition.1.op.names sharedRecord.ip = false ∧
      sharedSweep.1.op.names sharedRecord.ip = false := by
    decide +kernel
  have hrun : Run (fun s l s' => OpStep Env.any s l s' ∧ l.op.names sharedRecord.ip = false ∧
      KeepsRecord sharedRecord s l)
      sharedStart.2 [sharedAddition.1, sharedSweep.1] sharedSweep.2 :=
    .cons ⟨steps_shared.1, hnames.1, Or.inl hunsaved⟩
      (.cons ⟨steps_shared.2, hnames.2, Or.inr ⟨hheld, fun _ => letsBe_sharedSweep⟩⟩ .nil)
  refine ⟨by decide +kernel, ?_⟩
  exact record_kept_of_run (fun _ => rfl) rfl plainFile_sharedFile hmem
    (Host.exec_playStart _ _) refused_sharedStart hrun

end Sample

end IpRouter.RouteManager
