import IpRouter.RouteManager.Loading

/-!
# The route database round trip

An index is saved, and the process starts again at a time at which nothing in it
has expired, on a system that takes every route. Then the loader rebuilds the
index and writes the file it has read (`load_of_save`): the checks for expired
and conflicting records do nothing on what the process writes itself, and no key
can make a record look like another or like two.
-/

namespace IpRouter.RouteManager

open Theory RouteService

/-! ### What can be stored -/

/-- The index as if it had just been loaded: nothing has been tried yet. -/
def Routes.untried (m : Routes) : Routes :=
  OrdMap.filterMap (fun _ group =>
    some (OrdMap.filterMap (fun _ metadata => some { metadata with lastAttempt := 0 }) group)) m

/-- **An index as the service builds it**: its keys are such as the service takes, its addresses are
canonical, its numbers are in range, keys agree on gateways, and no group is empty. -/
structure Routes.Storable (m : Routes) : Prop where
  /-- Keys are not empty and pass the check of the service. -/
  key : ∀ key ip metadata, m.lookup key ip = some metadata → key ≠ [] ∧
    validRouteKey (some key) = true
  /-- Addresses are canonical. -/
  address : ∀ key ip metadata, m.lookup key ip = some metadata → dottedQuad ip = true ∧
    dottedQuad metadata.gateway = true
  /-- Numbers are in range. -/
  inRange : m.InRange
  /-- There is one gateway for each target. -/
  agree : m.refs.Agree
  /-- No key has an empty target map. -/
  noEmpty : m.NoEmpty

namespace Routes

variable {m : Routes}

theorem lookup_untried (m : Routes) (key ip : Bytes) :
    m.untried.lookup key ip = (m.lookup key ip).map fun metadata =>
      { metadata with lastAttempt := 0 } := by
  simp only [lookup, untried, OrdMap.find_filterMap]
  cases OrdMap.find m key with
  | none => rfl
  | some group =>
    simp only [Option.bind_some, OrdMap.find_filterMap]
    cases OrdMap.find group ip <;> rfl

theorem NoEmpty.untried (h : m.NoEmpty) : m.untried.NoEmpty := by
  intro key group hg
  rw [Routes.untried, OrdMap.find_filterMap] at hg
  obtain ⟨old, hold, heq⟩ := Option.bind_eq_some_iff.mp hg
  obtain rfl := Option.some.inj heq
  rw [Bool.eq_false_iff, ne_eq, OrdMap.isEmpty_iff]
  intro hnone
  refine Bool.eq_false_iff.mp (h key old hold) (OrdMap.isEmpty_iff.mpr fun ip => ?_)
  have hip := hnone ip
  rw [OrdMap.find_filterMap] at hip
  cases ho : OrdMap.find old ip with
  | none => rfl
  | some metadata => simp [ho] at hip

/-- What is written does not depend on what was tried. -/
theorem encodeRoutes_untried (m : Routes) : encodeRoutes m.untried = encodeRoutes m := by
  simp [encodeRoutes_eq, savedRoutes, untried, OrdMap.filterMap, List.flatMap_map, savedRoute,
    Function.comp_def]

theorem Storable.plain [Platform] (hquad : Canonical) (h : m.Storable) :
    m.Plain := fun key ip metadata hl =>
  ⟨validSavedKey_iff.mpr (h.key key ip metadata hl),
    validIpv4_of_dottedQuad hquad (h.address key ip metadata hl).1,
    validIpv4_of_dottedQuad hquad (h.address key ip metadata hl).2⟩

end Routes

/-! ### The load -/

/-- Reading works, the clock reads `now`, and the system takes every route. -/
def restoring (now : ℤ) : (c : HostCall) → c.Reply → Bool
  | .time, reading => readsAs now reading
  | .readRoutes, .openFailed _ => false
  | .readRoutes, .readFailed => false
  | .addSystemRoute _ _, .error _ => false
  | _, _ => true

theorem restoring_total (now : ℤ) (h : Host) (c : HostCall) :
    ∃ r h', restrict Host.Answers (restoring now) h c r h' := by
  cases c with
  | time => exact ⟨now, { h with clock := now }, rfl, by simp [restoring, readsAs]⟩
  | readRoutes =>
    cases hf : h.routesFile with
    | none => exact ⟨.absent, h, ⟨hf, rfl⟩, rfl⟩
    | some content => exact ⟨.content content, h, ⟨hf, rfl⟩, rfl⟩
  | readGlobal => exact ⟨.readFailed, h, ⟨trivial, rfl⟩, rfl⟩
  | replaceRoutes content => exact ⟨none, _, rfl, rfl⟩
  | replaceGlobal content => exact ⟨none, _, rfl, rfl⟩
  | addSystemRoute destination gateway => exact ⟨.ok (), _, rfl, rfl⟩
  | deleteSystemRoute destination gateway => exact ⟨.error [], h, rfl, rfl⟩
  | listSystemRoutes => exact ⟨.error [], h, rfl, rfl⟩

variable {m : Routes} {now : ℤ} {h₀ h : Host} {es : List HostEvent} {s : Restore}

/-- When no record has expired and every route is taken, the first pass rebuilds the index. -/
theorem Passed.untried (hp : Passed now h₀ m.savedRoutes es s h) (hagree : m.refs.Agree)
    (hnoEmpty : m.NoEmpty) (halive : ∀ key ip metadata, m.lookup key ip = some metadata →
      ¬ (0 < metadata.expiresAt ∧ metadata.expiresAt ≤ now)) (hadded : ∀ ip, ¬ AddFailed ip es) :
    s.installed = m.untried := by
  refine hp.noEmpty.ext hnoEmpty.untried fun key ip => ?_
  rw [Routes.lookup_untried]
  cases hl : s.installed.lookup key ip with
  | some metadata =>
    -- what is in the index comes from a record, and so from the old index
    obtain ⟨-, it, hmem, -, rfl, rfl, rfl⟩ := hp.installed key ip metadata hl
    obtain ⟨old, hold, heq⟩ := Routes.mem_savedRoutes_iff.mp hmem
    rw [hold, Option.map_some, heq]
    rfl
  | none =>
    -- and every reference of the old index is a record, which has been restored
    cases hold : m.lookup key ip with
    | none => rfl
    | some old =>
      have hmem : savedRoute key ip old ∈ m.savedRoutes :=
        Routes.mem_savedRoutes_iff.mpr ⟨old, hold, rfl⟩
      have hlive : (savedRoute key ip old).expired now = false :=
        SavedRoute.expired_eq_false.mpr (halive key ip old hold)
      rcases hp.complete _ hmem hlive with ⟨gateway, hactive, hin⟩ | hf
      · obtain ⟨key', metadata, hl'⟩ := hp.active _ _ hactive
        obtain ⟨hgw, it, hit, -, hk, hi, rfl⟩ := hp.installed _ _ _ hl'
        obtain ⟨other, hother, heq⟩ := Routes.mem_savedRoutes_iff.mp hit
        have hsame : gateway = old.gateway := by
          have hvia : it.gateway = gateway := Option.some.inj (hgw.symm.trans hactive)
          have hthis : m.refs key ip = some old.gateway := Routes.refs_eq_some.mpr ⟨old, hold, rfl⟩
          have hthat : m.refs it.key ip = some it.gateway := by
            rw [show ip = it.ip from hi.symm]
            exact Routes.refs_eq_some.mpr ⟨other, hother, by rw [heq]; rfl⟩
          exact hvia.symm.trans (hagree hthat hthis)
        obtain ⟨metadata, hl''⟩ := hin hsame
        rw [show s.installed.lookup key ip = some metadata from hl''] at hl
        cases hl
      · exact absurd hf (hadded _)

/-- **An index that was saved is loaded as it was**, at any time at which nothing in it has expired:
the records read are exactly those written, the loader rebuilds the index, and it writes the file it
has read. The keys the service takes are among those the loader takes. -/
theorem load_of_save [Platform] (hquad : Canonical) (hm : m.Storable) (now : ℤ) {h₁ : Host}
    (hsave : Exec Host.Answers (saveRoutesLocked m) h es (.ok ()) h₁)
    (halive : ∀ key ip metadata, m.lookup key ip = some metadata →
      ¬ (0 < metadata.expiresAt ∧ metadata.expiresAt ≤ now)) :
    (∀ key, key ≠ [] → validRouteKey (some key) = true → validSavedKey key = true) ∧
    parseRoutes (encodeRoutes m) = m.savedRoutes ∧
    (∃ es' r h', Exec (restrict Host.Answers (restoring now))
      (loadRoutesLocked OrdMap.empty) h₁ es' r h') ∧
    ∀ es' r h', Exec (restrict Host.Answers (restoring now))
      (loadRoutesLocked OrdMap.empty) h₁ es' r h' →
      r.1 = m.untried ∧ h'.routesFile = h₁.routesFile ∧
        ∃ before fault, es' = before ++ [⟨.replaceRoutes (encodeRoutes m), fault⟩] ∧
          ∀ e ∈ before, ∀ content reply, e ≠ ⟨.replaceRoutes content, reply⟩ := by
  have hparse := parseRoutes_encodeRoutes_of_inRange hquad (hm.plain hquad) hm.inRange
  have hfile : h₁.routesFile = some (encodeRoutes m) := by
    obtain ⟨fault, -, hA, hr⟩ := exec_saveRoutesLocked.mp hsave
    obtain rfl := routesSaved_eq_ok.mp hr.symm
    obtain rfl := hA
    rfl
  refine ⟨fun key hne hk => validSavedKey_iff.mpr ⟨hne, hk⟩, hparse,
    exists_exec (restoring_total now) _ _, ?_⟩
  intro es' r h' hrun
  obtain ⟨hrun, hok⟩ := exec_restrict_iff.mp hrun
  have hplain : ∀ content, h₁.routesFile = some content → PlainFile content := by
    intro content hc it hit
    obtain rfl := Option.some.inj (hfile.symm.trans hc)
    rw [hparse] at hit
    obtain ⟨metadata, hl, heq⟩ := Routes.mem_savedRoutes_iff.mp hit
    exact heq ▸ hm.plain hquad _ _ _ hl
  cases exec_loadRoutesLocked hquad hplain hrun with
  | absent hnone => rw [hfile] at hnone; cases hnone
  | unread hfailed =>
    have hread := hok _ List.mem_cons_self
    rcases hfailed with ⟨code, rfl⟩ | rfl <;> cases hread
  | @incomplete content e clock s es₁ es₂ h₂ h₃ hc hpassed hswept hfailed =>
    obtain ⟨ip, gateway, e, hmem⟩ := hpassed.restoreFailed.mp hfailed
    cases hok _ (List.mem_cons_of_mem _ (List.mem_cons_of_mem _ (List.mem_append_left _ hmem)))
  | @rewritten content clock s es₁ es₂ fault h₂ h₃ h' hc hpassed hswept hcomplete hsaved =>
    obtain rfl := Option.some.inj (hfile.symm.trans hc)
    obtain rfl : clock = now := by simpa [restoring, readsAs] using hok ⟨.time, clock⟩ (by simp)
    have hadded : ∀ ip, ¬ AddFailed ip es₁ := fun ip hf => by
      have hrestored := hpassed.restoreFailed.mpr ⟨ip, hf⟩
      rw [hcomplete] at hrestored
      cases hrestored
    rw [hparse] at hpassed
    have hinstalled := hpassed.untried hm.agree hm.noEmpty halive hadded
    rw [hinstalled, Routes.encodeRoutes_untried] at hsaved ⊢
    refine ⟨rfl, ?_, ⟨.readRoutes, .content (encodeRoutes m)⟩ :: ⟨.time, clock⟩ :: (es₁ ++ es₂),
      fault, by simp, ?_⟩
    · have hkept : h₃.routesFile = h₁.routesFile := by
        obtain ⟨kernel, rfl⟩ := hswept.host
        rw [hpassed.host]
      cases fault with
      | none =>
        obtain rfl := hsaved
        exact hfile.symm
      | some f =>
        obtain rfl := hsaved
        exact hkept
    · intro e he content reply heq
      subst heq
      rcases List.mem_cons.mp he with heq | he
      · cases heq
      rcases List.mem_cons.mp he with heq | he
      · cases heq
      rcases List.mem_append.mp he with he | he
      · exact absurd he (hpassed.notMem fun _ _ _ h => by cases h)
      · exact absurd he (hswept.notMem fun _ _ _ h => by cases h)

section Sample

/-- The index with these references. -/
def Routes.ofList (refs : List (Bytes × Bytes × RouteMetadata)) : Routes :=
  refs.foldl (fun m ref => m.set ref.1 ref.2.1 ref.2.2) OrdMap.empty

theorem Routes.mem_of_ofList {refs : List (Bytes × Bytes × RouteMetadata)} {key ip : Bytes}
    {metadata : RouteMetadata} (h : (ofList refs).lookup key ip = some metadata) :
    (key, ip, metadata) ∈ refs := by
  induction refs using List.reverseRecOn with
  | nil => cases h
  | append_singleton refs ref ih =>
    rw [ofList, List.foldl_append, List.foldl_cons, List.foldl_nil, Routes.lookup_set] at h
    split_ifs at h with hat
    · obtain ⟨rfl, rfl⟩ := hat
      obtain rfl := Option.some.inj h
      simp
    · exact List.mem_append_left _ (ih h)

theorem Routes.noEmpty_ofList (refs : List (Bytes × Bytes × RouteMetadata)) :
    (ofList refs).NoEmpty := by
  induction refs using List.reverseRecOn with
  | nil => exact NoEmpty.empty
  | append_singleton refs ref ih =>
    rw [ofList, List.foldl_append, List.foldl_cons, List.foldl_nil]
    exact NoEmpty.set ih _ _ _

/-- Keys that look like the first line of the file, like a record and like an
address; one target is shared. -/
def sampleRefs : List (Bytes × Bytes × RouteMetadata) :=
  [(text "# ip-router routes v1", text "10.0.0.1", ⟨text "10.0.0.254", 60, 36060, 36000⟩),
    (text "# ip-router routes v1", text "10.0.0.2", ⟨text "10.0.0.253", 0, 0, 0⟩),
    (text "a 10.0.0.1 10.0.0.254 0 0", text "10.0.0.1", ⟨text "10.0.0.254", 0, 0, 0⟩),
    (text "10.0.0.3", text "10.0.0.3", ⟨text "10.0.0.254", 86400, 122400, 0⟩)]

/-- They are saved at 10:00 and loaded ten seconds later. -/
theorem load_of_save_sampleRefs : ∃ (m : Routes) (es : List HostEvent) (r : Result) (h h' : Host),
    m.savedRoutes.length = 4 ∧
      Exec (restrict Host.Answers (restoring 36010)) (@loadRoutesLocked quadPlatform OrdMap.empty)
        h es r h' ∧ r.1 = m.untried ∧ m.untried ≠ m ∧ h'.routesFile = h.routesFile := by
  let _ := quadPlatform
  let m := Routes.ofList sampleRefs
  let h : Host := ⟨none, none, fun _ => none, 36000⟩
  have hchecked : ∀ ref ∈ sampleRefs, ref.1 ≠ [] ∧ validRouteKey (some ref.1) = true ∧
      dottedQuad ref.2.1 = true ∧
      dottedQuad ref.2.2.gateway = true ∧ (0 ≤ ref.2.2.ttl ∧ ref.2.2.ttl ≤ int64Max) ∧
      (0 ≤ ref.2.2.expiresAt ∧ ref.2.2.expiresAt ≤ int64Max) ∧
          ¬ (0 < ref.2.2.expiresAt ∧ ref.2.2.expiresAt ≤ 36010) := by
    decide +kernel
  have hagree : ∀ ref ∈ sampleRefs, ∀ ref' ∈ sampleRefs, ref.2.1 = ref'.2.1 →
      ref.2.2.gateway = ref'.2.2.gateway := by
    decide +kernel
  have hm : m.Storable := by
    refine ⟨fun key ip metadata hl => ?_, fun key ip metadata hl => ?_,
      fun key ip metadata hl => ?_, ?_, Routes.noEmpty_ofList _⟩
    · obtain ⟨hne, hkey, -⟩ := hchecked _ (Routes.mem_of_ofList hl)
      exact ⟨hne, hkey⟩
    · obtain ⟨-, -, hip, hgateway, -⟩ := hchecked _ (Routes.mem_of_ofList hl)
      exact ⟨hip, hgateway⟩
    · obtain ⟨-, -, -, -, httl, hexpires, -⟩ := hchecked _ (Routes.mem_of_ofList hl)
      exact ⟨httl, hexpires⟩
    · intro key key' ip gateway gateway' hk hk'
      obtain ⟨metadata, hl, rfl⟩ := Routes.refs_eq_some.mp hk
      obtain ⟨metadata', hl', rfl⟩ := Routes.refs_eq_some.mp hk'
      exact hagree _ (Routes.mem_of_ofList hl) _ (Routes.mem_of_ofList hl') rfl
  have hsave := exec_play Host.answers_answer {} (saveRoutesLocked m) [] h
  obtain ⟨-, -, ⟨es, r, h', hrun⟩, hall⟩ := load_of_save (fun _ => rfl) hm 36010 hsave
    fun key ip metadata hl => (hchecked _ (Routes.mem_of_ofList hl)).2.2.2.2.2.2
  obtain ⟨hr, hfile, -⟩ := hall es r h' hrun
  exact ⟨m, es, r, _, h', by decide +kernel, hrun, hr, by decide +kernel, hfile⟩

end Sample

end IpRouter.RouteManager
