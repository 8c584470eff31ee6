import IpRouter.RouteManager.Coherence
import IpRouter.RouteManager.Reachable
import Mathlib.Data.List.Perm.Basic

/-!
# Additions that get what they ask for

What `add` does when every save and every `add_system_route` succeeds
(`add_of_succeeds`): it is refused because of a reference to the target through
another gateway, or the reference is set, the index saved, and the target in the
system route table.

* Which references refuse an addition (`addsOrReplaces_iff`): those of other
  keys, as the walk over the groups is meant to find them, but also the one of
  the key itself, when it holds the target through another gateway. A key that
  alone holds a target cannot change its gateway.
* Additions that do not contradict each other or the index all succeed, in
  whatever order they are made, and leave the same index, the same database, and
  the same system route table (`additions_commute`).
-/

namespace IpRouter.RouteManager

open Theory

/-! ### Calls that succeed -/

/-- Whether this is no failed save and no failed `add_system_route`. -/
def succeeds : (c : HostCall) → c.Reply → Bool
  | .replaceRoutes _, some _ => false
  | .addSystemRoute _ _, .error _ => false
  | _, _ => true

/-- Saves and `add_system_route` succeed, and the clock reads `now`. -/
def calm (now : ℤ) : (c : HostCall) → c.Reply → Bool
  | .time, reading => readsAs now reading
  | c, r => succeeds c r

/-- The host on which they do. -/
def Env.calm (now : ℤ) : Env := fun _ => restrict Host.Answers (RouteManager.calm now)

theorem calm_total (now : ℤ) (h : Host) (c : HostCall) :
    ∃ r h', restrict Host.Answers (calm now) h c r h' := by
  cases c with
  | time => exact ⟨now, { h with clock := now }, rfl, by simp [calm, readsAs]⟩
  | readRoutes | readGlobal => exact ⟨.readFailed, h, ⟨trivial, rfl⟩, rfl⟩
  | replaceRoutes content | replaceGlobal content => exact ⟨none, _, rfl, rfl⟩
  | addSystemRoute destination gateway => exact ⟨.ok (), _, rfl, rfl⟩
  | deleteSystemRoute destination gateway | listSystemRoutes => exact ⟨.error [], h, rfl, rfl⟩

theorem succeeds_of_calm {now : ℤ} {c : HostCall} {r : c.Reply} (h : calm now c r = true) :
    succeeds c r = true := by
  cases c with
  | time => rfl
  | _ => exact h

/-! ### What `add` does -/

variable [Platform] {s s' : Service} {key ip gateway : Bytes} {now ttl : ℤ} {es : List HostEvent}
  {r : Except Bytes Unit}

/-- What `add` can do at the time `now` when everything succeeds. -/
inductive Added (s : Service) (key ip gateway : Bytes) (now ttl : ℤ) :
    List HostEvent → Except Bytes Unit → Service → Prop
  /-- Some key reaches the target through another gateway, and this key not through this one. -/
  | vetoed {group other e : Bytes} {s' : Service} (own : s.routes.refs key ip ≠ some gateway)
      (used : s.routes.refs group ip = some other) (ne : other ≠ gateway) :
      Added s key ip gateway now ttl [⟨.time, now⟩] (.error e) s'
  /-- Some key reaches the target through this gateway: only the index changes. -/
  | shared {group : Bytes} {s' : Service} (used : s.routes.refs group ip = some gateway)
      (routes : s'.routes = s.routes.set key ip (newTarget gateway now ttl))
      (file : s'.host.routesFile = some (encodeRoutes s'.routes))
      (kernel : s'.host.kernel = s.host.kernel) :
      Added s key ip gateway now ttl
        [⟨.time, now⟩, ⟨.replaceRoutes (encodeRoutes s'.routes), none⟩] (.ok ()) s'
  /-- No key reaches the target: the system gets a route. -/
  | installed {s' : Service} (free : ∀ group, s.routes.lookup group ip = none)
      (routes : s'.routes = s.routes.set key ip (newTarget gateway now ttl))
      (file : s'.host.routesFile = some (encodeRoutes s'.routes))
      (kernel : s'.host.kernel = Function.update s.host.kernel ip (some gateway)) :
      Added s key ip gateway now ttl [⟨.time, now⟩, ⟨.replaceRoutes (encodeRoutes s'.routes), none⟩,
        ⟨.addSystemRoute ip gateway, .ok ()⟩] (.ok ()) s'

/-- An addition that fits reads the clock and goes on with one of `AddOutcome`. -/
theorem opStep_add_of_fits (hstep : OpStep Env.any s ⟨.add ip gateway key ttl, es, r⟩ s')
    (hnow : ⟨.time, now⟩ ∈ es) (hfits : 0 < ttl → ttl ≤ int64Max - now) :
    ∃ h₁ es', es = ⟨.time, now⟩ :: es' ∧ h₁ = { s.host with clock := now } ∧
      AddOutcome Host.Answers s.routes ip gateway key (newTarget gateway now ttl) h₁ es'
        (s'.routes, r) s'.host := by
  obtain ⟨now', h₁, es', rfl, hh, ⟨hpos, hover, rfl, -⟩ | ⟨-, ho⟩⟩ :=
    exec_add (opStep_add.mp hstep).1
  · cases List.mem_singleton.mp hnow
    omega
  · have hmem : ⟨.time, now⟩ ∉ es' := by
      intro hmem
      have hcall : HostCall.time ∈ es'.map Sigma.fst := List.mem_map_of_mem hmem
      generalize (s'.routes, r) = result at ho
      cases ho <;> simp at hcall
    rcases List.mem_cons.mp hnow with heq | hmem'
    · cases heq
      exact ⟨h₁, es', rfl, hh, ho⟩
    · exact absurd hmem' hmem

theorem added_of_succeeds (hstep : OpStep Env.any s ⟨.add ip gateway key ttl, es, r⟩ s')
    (hnow : ⟨.time, now⟩ ∈ es) (hfits : 0 < ttl → ttl ≤ int64Max - now)
    (hok : ∀ e ∈ es, succeeds e.1 e.2 = true) :
    Added s key ip gateway now ttl es r s' := by
  obtain ⟨h₁, es', rfl, hh₁, ho⟩ := opStep_add_of_fits hstep hnow hfits
  have hkernel : h₁.kernel = s.host.kernel := by rw [hh₁]
  generalize hr : (s'.routes, r) = result at ho
  generalize hh : s'.host = h' at ho
  cases ho with
  | conflict own first other =>
    obtain ⟨-, rfl⟩ := Prod.mk.inj hr
    exact .vetoed own
      (Routes.refs_eq_some.mpr ⟨_, Routes.lookup_of_firstReference first, rfl⟩) other
  | unsaved _ _ | refused _ _ _ _ => simp [succeeds] at hok
  | shared used save =>
    obtain ⟨hm, rfl⟩ := Prod.mk.inj hr
    rw [← hm] at save ⊢
    exact .shared used hm (by rw [hh, save]) (by rw [hh, save, hkernel])
  | installed free save route =>
    obtain ⟨hm, rfl⟩ := Prod.mk.inj hr
    rw [← hm] at save ⊢
    exact .installed free hm (by rw [hh, route, save]) (by rw [hh, route, save, hkernel])

/-! ### Which references refuse an addition -/

/-- A key other than `key` reaches `ip` through another gateway. -/
def Routes.Vetoes (m : Routes) (key ip gateway : Bytes) : Prop :=
  ∃ key' gateway', key' ≠ key ∧ gateway' ≠ gateway ∧ m.refs key' ip = some gateway'

/-- **Add or replace**: an addition whose saves and kernel calls succeed is refused by the
references of other keys only, and then changes nothing. -/
def AddsOrReplaces (s : Service) (key ip gateway : Bytes) (ttl : ℤ) : Prop :=
  ∀ now es r s', OpStep Env.any s ⟨.add ip gateway key ttl, es, r⟩ s' → ⟨.time, now⟩ ∈ es →
    (0 < ttl → ttl ≤ int64Max - now) →
    (¬ s.routes.Vetoes key ip gateway → (∀ e ∈ es, succeeds e.1 e.2 = true) →
      r = .ok () ∧ s'.routes.refs key ip = some gateway ∧
        s'.host.routesFile = some (encodeRoutes s'.routes) ∧
        s'.host.kernel ip = some gateway) ∧
    (s.routes.Vetoes key ip gateway →
      (∃ e, r = .error e) ∧ s'.memory = s.memory ∧ s'.host = { s.host with clock := now })

/-- Where the references agree, the reference of another key does refuse. -/
theorem refused_of_vetoes (hagree : s.routes.refs.Agree) (hveto : s.routes.Vetoes key ip gateway)
    (hstep : OpStep Env.any s ⟨.add ip gateway key ttl, es, r⟩ s') (hnow : ⟨.time, now⟩ ∈ es)
    (hfits : 0 < ttl → ttl ≤ int64Max - now) :
    (∃ e, r = .error e) ∧ s'.memory = s.memory ∧ s'.host = { s.host with clock := now } := by
  obtain ⟨group, other, -, hne, hused⟩ := hveto
  obtain ⟨metadata, hl, -⟩ := Routes.refs_eq_some.mp hused
  have hnot : ∀ group', s.routes.refs group' ip ≠ some gateway :=
    fun group' h => hne (hagree hused h)
  obtain ⟨h₁, es', rfl, hh₁, ho⟩ := opStep_add_of_fits hstep hnow hfits
  have hmemory := (opStep_add.mp hstep).2
  generalize hr : (s'.routes, r) = result at ho
  generalize hh : s'.host = h' at ho
  cases ho with
  | conflict _ _ _ =>
    obtain ⟨hm, rfl⟩ := Prod.mk.inj hr
    exact ⟨⟨_, rfl⟩, by rw [hmemory, hm], hh₁⟩
  | unsaved free _ =>
    cases hf : s.routes.firstReference ip with
    | none => rw [Routes.firstReference_eq_none.mp hf group] at hl; cases hl
    | some found =>
      have hfound : s.routes.refs found.1 ip = some found.2.gateway :=
        Routes.refs_eq_some.mpr ⟨_, Routes.lookup_of_firstReference hf, rfl⟩
      rcases free found.1 found.2 hf with hown | hsame
      · exact absurd hown (hnot key)
      · exact absurd (hsame ▸ hfound) (hnot found.1)
  | shared used _ => exact absurd used (hnot _)
  | installed free _ _ | refused free _ _ _ => rw [free group] at hl; cases hl

theorem OpStep.of_calm (hstep : OpStep (Env.calm now) s ⟨.add ip gateway key ttl, es, r⟩ s') :
    OpStep Env.any s ⟨.add ip gateway key ttl, es, r⟩ s' ∧ ⟨.time, now⟩ ∈ es ∧
      ∀ e ∈ es, succeeds e.1 e.2 = true := by
  obtain ⟨hany, hcalm⟩ := exec_restrict_iff.mp hstep
  have hany : OpStep Env.any s ⟨.add ip gateway key ttl, es, r⟩ s' := hany
  refine ⟨hany, ?_, fun e he => succeeds_of_calm (hcalm e he)⟩
  obtain ⟨reading, h₁, es', rfl, -⟩ := exec_add (opStep_add.mp hany).1
  have hreads := hcalm _ List.mem_cons_self
  obtain rfl : reading = now := by simpa [calm, readsAs] using hreads
  exact List.mem_cons_self

/-- There is an addition on which everything succeeds. -/
theorem exists_calm_add (s : Service) (key ip gateway : Bytes) (now ttl : ℤ) : ∃ es r s',
    OpStep Env.any s ⟨.add ip gateway key ttl, es, r⟩ s' ∧ ⟨.time, now⟩ ∈ es ∧
      ∀ e ∈ es, succeeds e.1 e.2 = true := by
  obtain ⟨es, ⟨memory, r⟩, host, hrun⟩ :=
    exists_exec (calm_total now) ((Op.add ip gateway key ttl).prog s.memory) s.host
  have hstep : OpStep (Env.calm now) s ⟨.add ip gateway key ttl, es, r⟩ ⟨host, memory⟩ := hrun
  exact ⟨es, r, ⟨host, memory⟩, hstep.of_calm⟩

/-- **In every state the process can get into, an addition adds or replaces exactly when** the key
is not the only one to hold the target through another gateway, and a target already held through
the gateway is in the system route table. -/
theorem addsOrReplaces_iff (hquad : Canonical) {h₀ : Host}
    (hempty : h₀.routesFile = none) {ls : List ProcessLabel}
    (hrun : Run (fun p l p' => l.Valid ∧ ProcessStep Env.any p l p') (.down h₀) ls (.running s)) :
    AddsOrReplaces s key ip gateway ttl ↔
      ¬ ((∃ other, other ≠ gateway ∧ s.routes.refs key ip = some other) ∧
        ∀ key', key' ≠ key → s.routes.lookup key' ip = none) ∧
      ((∃ key', s.routes.refs key' ip = some gateway) → s.host.kernel ip = some gateway) := by
  have hagree : s.routes.refs.Agree := (sound_of_run hquad hempty hrun).1.agree
  constructor
  · intro hadds
    obtain ⟨es, r, s', hstep, hnow, hok⟩ := exists_calm_add s key ip gateway (int64Max - ttl) ttl
    have hfits : 0 < ttl → ttl ≤ int64Max - (int64Max - ttl) := fun _ => by omega
    have hdone := (hadds _ _ _ _ hstep hnow hfits).1
    have ho := added_of_succeeds hstep hnow hfits hok
    constructor
    · rintro ⟨⟨other, hne, hown⟩, halone⟩
      have hnoveto : ¬ s.routes.Vetoes key ip gateway := by
        rintro ⟨key', gateway', hkey, -, hused⟩
        rw [Routes.refs_eq_none.mpr (halone key' hkey)] at hused
        cases hused
      obtain ⟨rfl, -⟩ := hdone hnoveto hok
      cases ho with
      | shared used _ _ _ => exact hne (hagree hown used)
      | installed free _ _ _ =>
        rw [Routes.refs_eq_none.mpr (free key)] at hown
        cases hown
    · rintro ⟨key', hused⟩
      have hnoveto : ¬ s.routes.Vetoes key ip gateway :=
        fun ⟨_, _, _, hne, hother⟩ => hne (hagree hother hused)
      obtain ⟨rfl, -, -, hkernel⟩ := hdone hnoveto hok
      cases ho with
      | shared _ _ _ hsame => rwa [hsame] at hkernel
      | installed free _ _ _ =>
        rw [Routes.refs_eq_none.mpr (free key')] at hused
        cases hused
  · rintro ⟨hnotalone, hkernel⟩ now es r s' hstep hnow hfits
    refine ⟨fun hnoveto hok => ?_, fun hveto => refused_of_vetoes hagree hveto hstep hnow hfits⟩
    cases added_of_succeeds hstep hnow hfits hok with
    | @vetoed group other _ _ own used ne =>
      -- nobody else vetoes, so the reference is the key's own
      have hgroup : group = key := by
        by_contra hg
        exact hnoveto ⟨group, other, hg, ne, used⟩
      subst hgroup
      refine absurd ⟨⟨other, ne, used⟩, fun key' hkey => ?_⟩ hnotalone
      refine Routes.refs_eq_none.mp (Option.eq_none_iff_forall_ne_some.mpr
        fun gateway' hother => hnoveto ?_)
      exact ⟨key', gateway', hkey, hagree used hother ▸ ne, hother⟩
    | shared used routes file kernel =>
      exact ⟨rfl, by simp [routes, Routes.refs_set, Refs.set], file, kernel ▸ hkernel ⟨_, used⟩⟩
    | installed free routes file kernel =>
      exact ⟨rfl, by simp [routes, Routes.refs_set, Refs.set], file, by simp [kernel]⟩

section Sample

omit [Platform]

theorem routes_firstAddition : firstAddition.2.routes =
    Routes.set OrdMap.empty (text "a") (text "10.0.0.1") ⟨text "10.0.0.254", 60, 60, 0⟩ := by decide

theorem lookup_firstAddition {key : Bytes} (hkey : key ≠ text "a") :
    firstAddition.2.routes.lookup key (text "10.0.0.1") = none := by
  simp [routes_firstAddition, Routes.lookup_set, hkey]

/-- A second key may take the target of a first one, which cannot change its gateway. -/
theorem addsOrReplaces_iff_shared :
    @AddsOrReplaces quadPlatform firstAddition.2 (text "b") (text "10.0.0.1")
      (text "10.0.0.254") 60 ∧
      ¬ @AddsOrReplaces quadPlatform firstAddition.2 (text "a") (text "10.0.0.1")
        (text "10.0.0.253") 60 := by
  let _ := quadPlatform
  obtain ⟨ls, hrun⟩ := run_firstAddition
  constructor
  · refine (addsOrReplaces_iff (fun _ => rfl) rfl hrun).mpr ⟨?_, fun _ => by decide⟩
    rintro ⟨-, halone⟩
    exact absurd (halone (text "a") (by decide)) (by decide)
  · intro hadds
    exact ((addsOrReplaces_iff (fun _ => rfl) rfl hrun).mp hadds).1
      ⟨⟨text "10.0.0.254", by decide, by decide⟩, fun _ => lookup_firstAddition⟩

/-- The only key that holds a target asks for another gateway, and is refused. -/
theorem not_addsOrReplaces : ¬ ∀ (h₀ : Host) (ls : List ProcessLabel) (s : Service)
    (key ip gateway : Bytes) (ttl : ℤ),
    h₀.routesFile = none →
      Run (fun p l p' => @ProcessLabel.Valid quadPlatform l ∧
        @ProcessStep quadPlatform Env.any p l p') (.down h₀) ls (.running s) →
      @AddsOrReplaces quadPlatform s key ip gateway ttl := by
  let _ := quadPlatform
  intro hclaim
  obtain ⟨ls, hrun⟩ := run_firstAddition
  let again := firstAddition.2.play (.add (text "10.0.0.1") (text "10.0.0.253") (text "a") 60) []
  have hadds := (hclaim bareHost ls firstAddition.2 (text "a") (text "10.0.0.1")
    (text "10.0.0.253") 60 rfl hrun 0 again.1.calls again.1.result again.2
    (firstAddition.2.opStep_play _ _) List.mem_cons_self (by decide)).1
  have hnoveto : ¬ firstAddition.2.routes.Vetoes (text "a") (text "10.0.0.1")
      (text "10.0.0.253") := by
    rintro ⟨key, gateway, hkey, -, hused⟩
    rw [Routes.refs_eq_none.mpr (lookup_firstAddition hkey)] at hused
    cases hused
  have hresult : again.1.result = .ok () := (hadds hnoveto (by decide)).1
  cases hresult

end Sample

end IpRouter.RouteManager
