import IpRouter.RouteManager.Codec
import IpRouter.RouteManager.Outcomes

/-!
# What loading the route database does

The first pass of the loader is described by what it has made of the records it
has passed (`Passed`): which targets are active, what is in the index, and what
the system route table holds. The second pass is described by what it has
deleted (`Swept`). `LoadOutcome` puts the two together with the reads before and
the final save; `exec_loadRoutesLocked` and `exec_start` say that this is what
the loader can do.

The records are assumed to have valid texts (`SavedRoute.Plain`): a NUL inside
the raw text of an address makes the loader treat two texts of one address as
two.
-/

namespace IpRouter.RouteManager

open Theory

variable {A : Answers Host HostCall HostCall.Reply} {now : ℤ} {h h' h₀ : Host} {es : List HostEvent}

/-! ### One record -/

/-- What the first pass can do at one record. -/
inductive RestoreOutcome (A : Answers Host HostCall HostCall.Reply) (now : ℤ) (it : SavedRoute)
    (s : Restore) (h : Host) : List HostEvent → Restore → Host → Prop
  /-- The record has expired: its route is noted. -/
  | expired (due : it.expired now = true) :
      RestoreOutcome A now it s h []
        { s with expired := s.expired.insert (routeId it.ip it.gateway) () } h
  /-- The target is active through another gateway. -/
  | conflict {gateway : Bytes} (alive : it.expired now = false)
      (active : s.active.find it.ip = some gateway)
      (other : gateway ≠ it.gateway) : RestoreOutcome A now it s h [] s h
  /-- The target is active through this gateway. -/
  | shared (alive : it.expired now = false) (active : s.active.find it.ip = some it.gateway) :
      RestoreOutcome A now it s h [] { s with installed := s.install it } h
  /-- The system refuses the route. -/
  | failed {e : Bytes} {h' : Host} (alive : it.expired now = false)
      (idle : s.active.find it.ip = none)
      (route : A h (.addSystemRoute (cString it.ip) (cString it.gateway)) (.error e) h') :
      RestoreOutcome A now it s h [⟨.addSystemRoute (cString it.ip) (cString it.gateway), .error e⟩]
        { s with restoreFailed := true } h'
  /-- The route is restored. -/
  | restored {u : Unit} {h' : Host} (alive : it.expired now = false)
      (idle : s.active.find it.ip = none)
      (route : A h (.addSystemRoute (cString it.ip) (cString it.gateway)) (.ok u) h') :
      RestoreOutcome A now it s h [⟨.addSystemRoute (cString it.ip) (cString it.gateway), .ok u⟩]
        { s with active := s.active.insert it.ip it.gateway, installed := s.install it } h'

theorem exec_restoreRecord {it : SavedRoute} {s s' : Restore}
    (hrun : Exec A (restoreRecord now s it) h es s' h') :
    RestoreOutcome A now it s h es s' h' := by
  unfold restoreRecord at hrun
  split_ifs at hrun with hdue
  · obtain ⟨rfl, rfl, rfl⟩ := exec_pure_iff.mp hrun
    exact .expired hdue
  · have halive : it.expired now = false := by simpa using hdue
    cases hactive : s.active.find it.ip with
    | some gateway =>
      simp only [hactive] at hrun
      split_ifs at hrun with hother
      · obtain ⟨rfl, rfl, rfl⟩ := exec_pure_iff.mp hrun
        exact .conflict halive hactive hother
      · obtain ⟨rfl, rfl, rfl⟩ := exec_pure_iff.mp hrun
        exact .shared halive (by rw [hactive, not_not.mp hother])
    | none =>
      simp only [hactive] at hrun
      obtain ⟨reply, h₁, es', rfl, hA, hrun⟩ := exec_lift_do_iff.mp hrun
      cases reply with
      | error e =>
        obtain ⟨rfl, rfl, rfl⟩ := exec_pure_iff.mp hrun
        exact .failed halive hactive hA
      | ok u =>
        obtain ⟨rfl, rfl, rfl⟩ := exec_pure_iff.mp hrun
        exact .restored halive hactive hA

/-! ### The first pass -/

/-- The texts of a record hold no NUL: the C strings are the texts. -/
structure SavedRoute.Clean (it : SavedRoute) : Prop where
  /-- The key. -/
  key : cString it.key = it.key
  /-- The target. -/
  ip : cString it.ip = it.ip
  /-- The next hop. -/
  gateway : cString it.gateway = it.gateway

theorem SavedRoute.Plain.clean [Platform] (hquad : Canonical) {it : SavedRoute}
    (h : it.Plain) : it.Clean :=
  ⟨(unbroken_of_validSavedKey h.key).cString, (unbroken_of_validIpv4 hquad h.ip).cString,
    (unbroken_of_validIpv4 hquad h.gateway).cString⟩

/-- The system refused to add a route to `ip`. -/
def AddFailed (ip : Bytes) (es : List HostEvent) : Prop :=
  ∃ gateway e, ⟨.addSystemRoute ip gateway, .error e⟩ ∈ es

theorem AddFailed.append {ip : Bytes} (h : AddFailed ip es) (es' : List HostEvent) :
    AddFailed ip (es ++ es') := by
  obtain ⟨gateway, e, hmem⟩ := h
  exact ⟨gateway, e, List.mem_append_left _ hmem⟩

/-- **What the first pass has made of the records `done`**, with the calls `es`, starting on
`h₀`. -/
structure Passed (now : ℤ) (h₀ : Host) (done : List SavedRoute) (es : List HostEvent)
    (s : Restore) (h : Host) :
    Prop where
  /-- The system route table holds the active routes, and the rest is as it was. -/
  host : h = { h₀ with kernel := fun ip => (s.active.find ip).or (h₀.kernel ip) }
  /-- Only calls of `add_system_route` were made. -/
  calls : ∀ e ∈ es, ∃ ip gateway reply, e = ⟨.addSystemRoute ip gateway, reply⟩
  /-- An active target is in the index. -/
  active : ∀ ip gateway, s.active.find ip = some gateway →
    ∃ key metadata, s.installed.lookup key ip = some metadata
  /-- What is in the index is active, and comes from a record that has not expired. -/
  installed : ∀ key ip metadata, s.installed.lookup key ip = some metadata →
    s.active.find ip = some metadata.gateway ∧
      ∃ it ∈ done, it.expired now = false ∧ it.key = key ∧ it.ip = ip ∧ it.metadata = metadata
  /-- A record that has not expired is in the index, or its target is active through another
  gateway, or the system refused to add the target. -/
  complete : ∀ it ∈ done, it.expired now = false →
    (∃ gateway, s.active.find it.ip = some gateway ∧
      (gateway = it.gateway → ∃ metadata, s.installed.lookup it.key it.ip = some metadata)) ∨
        AddFailed it.ip es
  /-- The routes of expired records are noted. -/
  expired : ∀ id, s.expired.find id = some () ↔ ∃ it ∈ done, it.expired now = true ∧
    routeId it.ip it.gateway = id
  /-- The pass knows whether the system refused a route. -/
  restoreFailed : s.restoreFailed = true ↔ ∃ ip, AddFailed ip es
  /-- No key has an empty target map. -/
  noEmpty : s.installed.NoEmpty

theorem Passed.start (now : ℤ) (h₀ : Host) :
    Passed now h₀ [] [] ⟨OrdMap.empty, OrdMap.empty, OrdMap.empty, false⟩ h₀ where
  host := rfl
  calls := by simp
  active ip gateway h := by simp at h
  installed key ip metadata h := by simp at h
  complete := by simp
  expired id := by simp
  restoreFailed := by simp [AddFailed]
  noEmpty := Routes.NoEmpty.empty

theorem Restore.install_of_clean {s : Restore} {it : SavedRoute} (hit : it.Clean) :
    s.install it = s.installed.set it.key it.ip it.metadata := by
  rw [Restore.install, hit.key, hit.ip, hit.gateway]
  rfl

variable {done : List SavedRoute} {it : SavedRoute} {s s' : Restore}

/-- What is in the index comes from a record that was passed, also once one more was. -/
theorem Passed.installed_later (hp : Passed now h₀ done es s h) (it : SavedRoute) {key ip : Bytes}
    {metadata : RouteMetadata} (hl : s.installed.lookup key ip = some metadata) :
    s.active.find ip = some metadata.gateway ∧
      ∃ it' ∈ done ++ [it], it'.expired now = false ∧ it'.key = key ∧ it'.ip = ip ∧
        it'.metadata = metadata := by
  obtain ⟨hactive, it', hmem, hrest⟩ := hp.installed key ip metadata hl
  exact ⟨hactive, it', List.mem_append_left _ hmem, hrest⟩

/-- What the passed records say carries over when a record is added that makes no call. -/
theorem Passed.expire (hp : Passed now h₀ done es s h) (hdue : it.expired now = true) :
    Passed now h₀ (done ++ [it]) es
      { s with expired := s.expired.insert (routeId it.ip it.gateway) () } h where
  host := hp.host
  calls := hp.calls
  active := hp.active
  installed _ _ _ hl := hp.installed_later it hl
  complete it' hmem halive := by
    rcases List.mem_append.mp hmem with hmem | hmem
    · exact hp.complete it' hmem halive
    · obtain rfl := List.mem_singleton.mp hmem
      rw [hdue] at halive
      cases halive
  expired id := by
    rw [OrdMap.find_insert]
    split_ifs with hid
    · simp only [true_iff]
      exact ⟨it, by simp, hdue, hid.symm⟩
    · rw [hp.expired id]
      constructor
      · rintro ⟨it', hmem, hrest⟩
        exact ⟨it', List.mem_append_left _ hmem, hrest⟩
      · rintro ⟨it', hmem, hdue', hid'⟩
        rcases List.mem_append.mp hmem with hmem | hmem
        · exact ⟨it', hmem, hdue', hid'⟩
        · obtain rfl := List.mem_singleton.mp hmem
          exact absurd hid'.symm hid
  restoreFailed := hp.restoreFailed
  noEmpty := hp.noEmpty

/-- The same for a record that has not expired, which does not note a route. -/
theorem Passed.expired_of_alive (hp : Passed now h₀ done es s h)
    (halive : it.expired now = false) (id : Bytes) :
    s.expired.find id = some () ↔ ∃ it' ∈ done ++ [it], it'.expired now = true ∧
      routeId it'.ip it'.gateway = id := by
  rw [hp.expired id]
  constructor
  · rintro ⟨it', hmem, hrest⟩
    exact ⟨it', List.mem_append_left _ hmem, hrest⟩
  · rintro ⟨it', hmem, hdue', hid'⟩
    rcases List.mem_append.mp hmem with hmem | hmem
    · exact ⟨it', hmem, hdue', hid'⟩
    · obtain rfl := List.mem_singleton.mp hmem
      rw [halive] at hdue'
      cases hdue'

theorem Passed.conflict (hp : Passed now h₀ done es s h) (halive : it.expired now = false)
    {gateway : Bytes} (hactive : s.active.find it.ip = some gateway)
    (hother : gateway ≠ it.gateway) :
    Passed now h₀ (done ++ [it]) es s h where
  host := hp.host
  calls := hp.calls
  active := hp.active
  installed _ _ _ hl := hp.installed_later it hl
  complete it' hmem halive' := by
    rcases List.mem_append.mp hmem with hmem | hmem
    · exact hp.complete it' hmem halive'
    · obtain rfl := List.mem_singleton.mp hmem
      exact Or.inl ⟨gateway, hactive, fun hsame => absurd hsame hother⟩
  expired := hp.expired_of_alive halive
  restoreFailed := hp.restoreFailed
  noEmpty := hp.noEmpty

theorem Passed.fail (hp : Passed now h₀ done es s h) (hit : it.Clean)
    (halive : it.expired now = false) (e : Bytes) :
    Passed now h₀ (done ++ [it])
      (es ++ [⟨.addSystemRoute (cString it.ip) (cString it.gateway), .error e⟩])
      { s with restoreFailed := true } h where
  host := hp.host
  calls e he := by
    rcases List.mem_append.mp he with he | he
    · exact hp.calls e he
    · obtain rfl := List.mem_singleton.mp he
      exact ⟨_, _, _, rfl⟩
  active := hp.active
  installed _ _ _ hl := hp.installed_later it hl
  complete it' hmem halive' := by
    rcases List.mem_append.mp hmem with hmem | hmem
    · exact (hp.complete it' hmem halive').imp_right fun hf => hf.append _
    · obtain rfl := List.mem_singleton.mp hmem
      refine Or.inr ⟨cString it'.gateway, e, List.mem_append_right _ ?_⟩
      rw [hit.ip]
      exact List.mem_singleton_self _
  expired := hp.expired_of_alive halive
  restoreFailed := by
    simp only [true_iff]
    exact ⟨cString it.ip, cString it.gateway, e, by simp⟩
  noEmpty := hp.noEmpty

/-- The record goes into the index, its target being active through its gateway then. -/
theorem Passed.install (hp : Passed now h₀ done es s h) (hit : it.Clean)
    (halive : it.expired now = false) {active : OrdMap Bytes Bytes}
    (hself : active.find it.ip = some it.gateway)
    (hothers : ∀ ip, ip ≠ it.ip → active.find ip = s.active.find ip)
    (hkeep : ∀ gateway, s.active.find it.ip = some gateway → gateway = it.gateway)
    (es' : List HostEvent)
    (hcalls : ∀ e ∈ es', e = ⟨.addSystemRoute (cString it.ip) (cString it.gateway), .ok ()⟩) :
    Passed now h₀ (done ++ [it]) (es ++ es') { s with active := active, installed := s.install it }
      { h₀ with kernel := fun ip => (active.find ip).or (h₀.kernel ip) } := by
  have hgrow : ∀ ip gateway, s.active.find ip = some gateway → active.find ip = some gateway := by
    intro ip gateway hip
    by_cases hsame : ip = it.ip
    · subst hsame
      rw [hself, hkeep gateway hip]
    · rw [hothers ip hsame, hip]
  have hstay : ∀ key ip metadata, s.installed.lookup key ip = some metadata →
      ∃ metadata', (s.install it).lookup key ip = some metadata' := by
    intro key ip metadata hl
    rw [Restore.install_of_clean hit, Routes.lookup_set]
    split_ifs
    · exact ⟨_, rfl⟩
    · exact ⟨metadata, hl⟩
  have hfailed : ∀ ip, AddFailed ip (es ++ es') ↔ AddFailed ip es := by
    intro ip
    refine ⟨?_, fun hf => hf.append _⟩
    rintro ⟨gateway, e, hmem⟩
    rcases List.mem_append.mp hmem with hmem | hmem
    · exact ⟨gateway, e, hmem⟩
    · cases hcalls _ hmem
  refine ⟨rfl, ?_, ?_, ?_, ?_, hp.expired_of_alive halive, ?_, ?_⟩
  · intro e he
    rcases List.mem_append.mp he with he | he
    · exact hp.calls e he
    · exact ⟨_, _, _, hcalls e he⟩
  · intro ip gateway hip
    by_cases hsame : ip = it.ip
    · subst hsame
      exact ⟨it.key, it.metadata, by simp [Restore.install_of_clean hit, Routes.lookup_set]⟩
    · rw [hothers ip hsame] at hip
      obtain ⟨key, metadata, hl⟩ := hp.active ip gateway hip
      exact ⟨key, hstay key ip metadata hl⟩
  · intro key ip metadata hl
    simp only [Restore.install_of_clean hit, Routes.lookup_set] at hl
    split_ifs at hl with hsame
    · obtain ⟨rfl, rfl⟩ := hsame
      obtain rfl := Option.some.inj hl
      exact ⟨hself, it, by simp, halive, rfl, rfl, rfl⟩
    · obtain ⟨hactive, hfrom⟩ := hp.installed_later it hl
      exact ⟨hgrow ip _ hactive, hfrom⟩
  · intro it' hmem halive'
    rcases List.mem_append.mp hmem with hmem | hmem
    · rcases hp.complete it' hmem halive' with ⟨gateway, hactive, hl⟩ | hf
      · refine Or.inl ⟨gateway, hgrow _ _ hactive, fun hsame => ?_⟩
        obtain ⟨metadata, hl⟩ := hl hsame
        exact hstay _ _ metadata hl
      · exact Or.inr (hf.append _)
    · obtain rfl := List.mem_singleton.mp hmem
      exact Or.inl ⟨it'.gateway, hself,
        fun _ => ⟨it'.metadata, by simp [Restore.install_of_clean hit, Routes.lookup_set]⟩⟩
  · simp only [hfailed]
    exact hp.restoreFailed
  · simp only [Restore.install_of_clean hit]
    exact hp.noEmpty.set _ _ _

/-- **Every record keeps it.** -/
theorem Passed.step {es' : List HostEvent} (hp : Passed now h₀ done es s h)
    (hit : it.Clean) (ho : RestoreOutcome Host.Answers now it s h es' s' h') :
    Passed now h₀ (done ++ [it]) (es ++ es') s' h' := by
  cases ho with
  | expired due =>
    rw [List.append_nil]
    exact hp.expire due
  | conflict alive active other =>
    rw [List.append_nil]
    exact hp.conflict alive active other
  | shared alive active =>
    have hpassed := hp.install hit alive active (fun _ _ => rfl)
      (fun gateway hg => (Option.some.inj (active.symm.trans hg)).symm) [] (by simp)
    rwa [← hp.host] at hpassed
  | @failed e _ alive idle route =>
    obtain rfl := route
    exact hp.fail hit alive e
  | @restored u h' alive idle route =>
    have hpassed := hp.install hit alive (OrdMap.find_insert_self s.active it.ip it.gateway)
      (fun ip hne => by rw [OrdMap.find_insert, if_neg hne])
        (fun gateway hg => by rw [idle] at hg; cases hg)
      [⟨.addSystemRoute (cString it.ip) (cString it.gateway), .ok u⟩] (by simp)
    convert hpassed using 1
    rw [route, hp.host, hit.ip, hit.gateway]
    simp only [Host.mk.injEq, true_and, and_true]
    funext ip
    by_cases hip : ip = it.ip
    · subst hip
      simp
    · simp [OrdMap.find_insert, hip]

theorem passed_of_exec {saved : List SavedRoute} (hclean : ∀ it ∈ saved, it.Clean)
    (hrun : Exec Host.Answers
      (Prog.loop (restoreRecord now) saved ⟨OrdMap.empty, OrdMap.empty, OrdMap.empty, false⟩)
      h₀ es s h) : Passed now h₀ saved es s h := by
  refine exec_loop_inv (fun done es s h => Passed now h₀ done es s h) ?_ (Passed.start now h₀) hrun
  intro done it rest es s h es' s' h' hsaved hp hrun
  exact hp.step (hclean it (by simp [hsaved])) (exec_restoreRecord hrun)

/-! ### The second pass -/

/-- What the second pass can do at one noted route. -/
theorem exec_deleteExpired {active : OrdMap Bytes Bytes} {ip gateway : Bytes} {u : Unit}
    (hnewline : 10 ∉ ip) (hrun : Exec A (deleteExpired active () (routeId ip gateway)) h es u h') :
    ((∃ via, active.find ip = some via) ∧ es = [] ∧ h' = h) ∨
      (active.find ip = none ∧ ∃ reply : Except Bytes Unit,
        es = [⟨.deleteSystemRoute (cString ip) (cString gateway), reply⟩] ∧
          A h (.deleteSystemRoute (cString ip) (cString gateway)) reply h') := by
  simp only [deleteExpired, takeWhile_routeId hnewline, dropWhile_routeId hnewline] at hrun
  cases hactive : active.find ip with
  | some via =>
    simp only [hactive] at hrun
    obtain ⟨rfl, -, rfl⟩ := exec_pure_iff.mp hrun
    exact Or.inl ⟨⟨via, rfl⟩, rfl, rfl⟩
  | none =>
    simp only [hactive] at hrun
    obtain ⟨reply, h₁, es₁, rfl, hA, hret⟩ := exec_lift_do_iff.mp hrun
    obtain ⟨rfl, -, rfl⟩ := exec_pure_iff.mp hret
    exact Or.inr ⟨rfl, reply, rfl, hA⟩

/-- **What the second pass has made of the noted routes `done`**, with the
calls `es`, starting on `h₀`. -/
structure Swept (active : OrdMap Bytes Bytes) (h₀ : Host) (done : List Bytes)
    (es : List HostEvent) (h : Host) :
    Prop where
  /-- The system route table has lost what was deleted, and the rest is as it was. -/
  host : ∃ kernel, h = { h₀ with kernel := kernel }
  /-- Only routes to targets that are not active were tried. -/
  calls : ∀ e ∈ es, ∃ ip gateway reply, e = ⟨.deleteSystemRoute ip gateway, reply⟩ ∧
    active.find ip = none
  /-- Every noted route whose target is not active was tried. -/
  tried : ∀ ip gateway, routeId ip gateway ∈ done → 10 ∉ ip → active.find ip = none →
    ∃ reply, ⟨.deleteSystemRoute (cString ip) (cString gateway), reply⟩ ∈ es
  /-- What is left was there, and was not deleted. -/
  left : ∀ ip gateway, h.kernel ip = some gateway →
    h₀.kernel ip = some gateway ∧ ∀ u, ⟨.deleteSystemRoute ip gateway, .ok u⟩ ∉ es
  /-- What was there is left, unless it was deleted. -/
  kept : ∀ ip gateway, h₀.kernel ip = some gateway →
    h.kernel ip = some gateway ∨ ∃ u, ⟨.deleteSystemRoute ip gateway, .ok u⟩ ∈ es

theorem Swept.start (active : OrdMap Bytes Bytes) (h₀ : Host) : Swept active h₀ [] [] h₀ where
  host := ⟨h₀.kernel, rfl⟩
  calls := by simp
  tried := by simp
  left ip gateway hk := by simp [hk]
  kept ip gateway hk := Or.inl hk

variable {active : OrdMap Bytes Bytes} {ids : List Bytes}

/-- **Every noted route keeps it.** -/
theorem Swept.step {ip gateway : Bytes} {u : Unit} {es' : List HostEvent}
    (hs : Swept active h₀ ids es h) (hnewline : 10 ∉ ip)
    (hip : cString ip = ip) (hgateway : cString gateway = gateway)
    (hrun : Exec Host.Answers (deleteExpired active () (routeId ip gateway)) h es' u h') :
    Swept active h₀ (ids ++ [routeId ip gateway]) (es ++ es') h' := by
  rcases exec_deleteExpired hnewline hrun with ⟨⟨via, hactive⟩, rfl, rfl⟩ |
    ⟨hactive, reply, rfl, hA⟩
  · rw [List.append_nil]
    refine ⟨hs.host, hs.calls, fun ip' gateway' hmem hnewline' hidle => ?_, hs.left, hs.kept⟩
    rcases List.mem_append.mp hmem with hmem | hmem
    · exact hs.tried ip' gateway' hmem hnewline' hidle
    · obtain ⟨rfl, rfl⟩ := routeId_inj hnewline' hnewline (List.mem_singleton.mp hmem)
      rw [hactive] at hidle
      cases hidle
  · rw [hip, hgateway] at hA ⊢
    have hcalls : ∀ e ∈ es ++ [⟨.deleteSystemRoute ip gateway, reply⟩],
        ∃ ip gateway reply, e = ⟨.deleteSystemRoute ip gateway, reply⟩ ∧ active.find ip = none := by
      intro e he
      rcases List.mem_append.mp he with he | he
      · exact hs.calls e he
      · exact ⟨ip, gateway, reply, List.mem_singleton.mp he, hactive⟩
    have htried : ∀ ip' gateway', routeId ip' gateway' ∈ ids ++ [routeId ip gateway] → 10 ∉ ip' →
        active.find ip' = none →
        ∃ reply', ⟨.deleteSystemRoute (cString ip') (cString gateway'), reply'⟩ ∈
          es ++ [⟨.deleteSystemRoute ip gateway, reply⟩] := by
      intro ip' gateway' hmem hnewline' hidle
      rcases List.mem_append.mp hmem with hmem | hmem
      · obtain ⟨reply', hmem⟩ := hs.tried ip' gateway' hmem hnewline' hidle
        exact ⟨reply', List.mem_append_left _ hmem⟩
      · obtain ⟨rfl, rfl⟩ := routeId_inj hnewline' hnewline (List.mem_singleton.mp hmem)
        refine ⟨reply, List.mem_append_right _ ?_⟩
        rw [hip, hgateway]
        exact List.mem_singleton_self _
    obtain ⟨kernel, hkernel⟩ := hs.host
    cases reply with
    | error e =>
      obtain rfl := hA
      refine ⟨⟨kernel, hkernel⟩, hcalls, htried, fun ip' gateway' hk => ?_,
        fun ip' gateway' hk => ?_⟩
      · obtain ⟨h₁, h₂⟩ := hs.left ip' gateway' hk
        refine ⟨h₁, fun u hmem => ?_⟩
        rcases List.mem_append.mp hmem with hmem | hmem
        · exact h₂ u hmem
        · cases List.mem_singleton.mp hmem
      · exact (hs.kept ip' gateway' hk).imp_right fun ⟨u, hmem⟩ => ⟨u, List.mem_append_left _ hmem⟩
    | ok v =>
      obtain ⟨hthere, rfl⟩ := hA
      refine ⟨⟨_, by rw [hkernel]⟩, hcalls, htried, fun ip' gateway' hk => ?_,
        fun ip' gateway' hk => ?_⟩
      · by_cases hsame : ip' = ip
        · subst hsame
          simp at hk
        · simp only [Function.update_of_ne hsame] at hk
          obtain ⟨h₁, h₂⟩ := hs.left ip' gateway' hk
          refine ⟨h₁, fun u hmem => ?_⟩
          rcases List.mem_append.mp hmem with hmem | hmem
          · exact h₂ u hmem
          · cases List.mem_singleton.mp hmem
            exact hsame rfl
      · rcases hs.kept ip' gateway' hk with hk | ⟨u, hmem⟩
        · by_cases hsame : ip' = ip
          · subst hsame
            obtain rfl := Option.some.inj (hthere.symm.trans hk)
            exact Or.inr ⟨v, by simp⟩
          · exact Or.inl (by simpa only [Function.update_of_ne hsame] using hk)
        · exact Or.inr ⟨u, List.mem_append_left _ hmem⟩

theorem swept_of_exec {u : Unit}
    (hids : ∀ id ∈ ids, ∃ ip gateway, id = routeId ip gateway ∧ 10 ∉ ip ∧
      cString ip = ip ∧ cString gateway = gateway)
    (hrun : Exec Host.Answers (Prog.loop (deleteExpired active) ids ()) h₀ es u h) :
    Swept active h₀ ids es h := by
  refine exec_loop_inv (fun done es _ h => Swept active h₀ done es h) ?_
    (Swept.start active h₀) hrun
  intro done id rest es _ h es' _ h' hsplit hs hrun
  obtain ⟨ip, gateway, rfl, hnewline, hip, hgateway⟩ := hids id (by simp [hsplit])
  exact hs.step hnewline hip hgateway hrun

/-- The first pass makes no other calls. -/
theorem Passed.notMem {saved : List SavedRoute} (hp : Passed now h₀ saved es s h) {e : HostEvent}
    (he : ∀ ip gateway reply, e ≠ ⟨.addSystemRoute ip gateway, reply⟩) : e ∉ es := fun hmem => by
  obtain ⟨ip, gateway, reply, heq⟩ := hp.calls e hmem
  exact he ip gateway reply heq

/-- And neither does the second one. -/
theorem Swept.notMem (hs : Swept active h₀ ids es h) {e : HostEvent}
    (he : ∀ ip gateway reply, e ≠ ⟨.deleteSystemRoute ip gateway, reply⟩) : e ∉ es := fun hmem => by
  obtain ⟨ip, gateway, reply, heq, -⟩ := hs.calls e hmem
  exact he ip gateway reply heq

/-- The two passes leave the file alone. -/
theorem Swept.routesFile {saved : List SavedRoute} {h₁ : Host} {es₁ : List HostEvent}
    (hs : Swept active h₁ ids es h) (hp : Passed now h₀ saved es₁ s h₁) :
    h.routesFile = h₀.routesFile := by
  obtain ⟨kernel, rfl⟩ := hs.host
  rw [hp.host]

/-! ### The whole load -/

variable [Platform]

/-- The index the first pass builds has valid texts. -/
theorem Passed.plain {saved : List SavedRoute} (hp : Passed now h₀ saved es s h)
    (hsaved : ∀ it ∈ saved, it.Plain) :
    s.installed.Plain := by
  intro key ip metadata hl
  obtain ⟨-, it, hmem, -, rfl, rfl, rfl⟩ := hp.installed key ip metadata hl
  have hit := hsaved it hmem
  exact ⟨hit.key, hit.ip, hit.gateway⟩

/-- A file whose records all have valid texts. -/
def PlainFile (content : Bytes) : Prop := ∀ it ∈ parseRoutes content, it.Plain

/-- What `load_routes_locked` can do with an empty index. -/
inductive LoadOutcome (h : Host) : List HostEvent → Result → Host → Prop
  /-- There is no file. -/
  | absent (file : h.routesFile = none) :
      LoadOutcome h [⟨.readRoutes, .absent⟩] (OrdMap.empty, .ok ()) h
  /-- The file cannot be read. -/
  | unread {reply : ReadReply} {e : Bytes}
      (failed : (∃ code, reply = .openFailed code) ∨ reply = .readFailed) :
      LoadOutcome h [⟨.readRoutes, reply⟩] (OrdMap.empty, .error e) h
  /-- A route could not be restored: the file stays. -/
  | incomplete {content e : Bytes} {now : ℤ} {s : Restore} {es₁ es₂ : List HostEvent} {h₁ h₂ : Host}
      (file : h.routesFile = some content)
      (passed : Passed now { h with clock := now } (parseRoutes content) es₁ s h₁)
      (swept : Swept s.active h₁ s.expired.keys es₂ h₂) (failed : s.restoreFailed = true) :
      LoadOutcome h (⟨.readRoutes, .content content⟩ :: ⟨.time, now⟩ :: (es₁ ++ es₂))
        (s.installed, .error e) h₂
  /-- The file is rewritten from the index, if it can be. -/
  | rewritten {content : Bytes} {now : ℤ} {s : Restore} {es₁ es₂ : List HostEvent}
      {fault : Option Fault} {h₁ h₂ h' : Host}
      (file : h.routesFile = some content)
      (passed : Passed now { h with clock := now } (parseRoutes content) es₁ s h₁)
      (swept : Swept s.active h₁ s.expired.keys es₂ h₂) (complete : s.restoreFailed = false)
      (save : Host.Answers h₂ (.replaceRoutes (encodeRoutes s.installed)) fault h') :
      LoadOutcome h (⟨.readRoutes, .content content⟩ :: ⟨.time, now⟩ ::
        (es₁ ++ (es₂ ++ [⟨.replaceRoutes (encodeRoutes s.installed), fault⟩])))
          (s.installed, routesSaved fault) h'

/-- What the loader writes is the index it has built. -/
theorem LoadOutcome.saved {r : Result} {content : Bytes} {fault : Option Fault}
    (ho : LoadOutcome h es r h') (hmem : ⟨.replaceRoutes content, fault⟩ ∈ es) :
    content = encodeRoutes r.1 := by
  cases ho with
  | absent _ | unread _ => cases List.mem_singleton.mp hmem
  | incomplete _ hpassed hswept _ =>
    simp only [List.mem_cons, List.mem_append] at hmem
    rcases hmem with heq | heq | hmem | hmem
    · cases heq
    · cases heq
    · exact absurd hmem (hpassed.notMem fun _ _ _ h => by cases h)
    · exact absurd hmem (hswept.notMem fun _ _ _ h => by cases h)
  | rewritten _ hpassed hswept _ _ =>
    simp only [List.mem_cons, List.mem_append, List.not_mem_nil, or_false] at hmem
    rcases hmem with heq | heq | hmem | hmem | heq
    · cases heq
    · cases heq
    · exact absurd hmem (hpassed.notMem fun _ _ _ h => by cases h)
    · exact absurd hmem (hswept.notMem fun _ _ _ h => by cases h)
    · cases heq
      rfl

omit [Platform] in
/-- The noted routes are those of expired records. -/
theorem Passed.mem_expired_iff {saved : List SavedRoute}
    (hp : Passed now h₀ saved es s h) {id : Bytes} :
    id ∈ s.expired.keys ↔ ∃ it ∈ saved, it.expired now = true ∧ routeId it.ip it.gateway = id := by
  rw [OrdMap.mem_keys_iff, ← hp.expired id]
  exact ⟨fun ⟨_, hv⟩ => hv, fun hv => ⟨_, hv⟩⟩

omit [Platform] in
/-- A target is active exactly if a key holds it. -/
theorem Passed.idle_iff {saved : List SavedRoute} (hp : Passed now h₀ saved es s h) (ip : Bytes) :
    s.active.find ip = none ↔ ∀ key, s.installed.lookup key ip = none := by
  constructor
  · intro hnone key
    cases hl : s.installed.lookup key ip with
    | none => rfl
    | some metadata =>
      rw [(hp.installed key ip metadata hl).1] at hnone
      cases hnone
  · intro hgone
    cases hactive : s.active.find ip with
    | none => rfl
    | some gateway =>
      obtain ⟨key, metadata, hl⟩ := hp.active ip gateway hactive
      rw [hgone key] at hl
      cases hl

/-- **What loading can do.** -/
theorem exec_loadRoutesLocked (hquad : Canonical) {r : Result}
    (hfile : ∀ content, h.routesFile = some content → PlainFile content)
    (hrun : Exec Host.Answers (loadRoutesLocked OrdMap.empty) h es r h') :
    LoadOutcome h es r h' := by
  obtain ⟨reply, h₁, es', rfl, ⟨hreply, rfl⟩, hread⟩ := exec_lift_do_iff.mp hrun
  cases reply with
  | absent =>
    obtain ⟨rfl, rfl, rfl⟩ := exec_pure_iff.mp hread
    exact .absent hreply
  | openFailed code =>
    obtain ⟨rfl, rfl, rfl⟩ := exec_pure_iff.mp hread
    exact .unread (Or.inl ⟨code, rfl⟩)
  | readFailed =>
    obtain ⟨rfl, rfl, rfl⟩ := exec_pure_iff.mp hread
    exact .unread (Or.inr rfl)
  | content content =>
    have hplain := hfile content hreply
    obtain ⟨now, h₂, es', rfl, rfl, hpasses⟩ := exec_lift_do_iff.mp hread
    obtain ⟨s, h₃, es₁, es₂, rfl, hfirst, hrest⟩ := exec_do_iff.mp hpasses
    obtain ⟨u, h₄, es₂, es₃, rfl, hsecond, hend⟩ := exec_do_iff.mp hrest
    have hpassed := passed_of_exec (fun it hit => (hplain it hit).clean hquad) hfirst
    have hswept := swept_of_exec (fun id hid => by
      obtain ⟨it, hit, -, rfl⟩ := hpassed.mem_expired_iff.mp hid
      have hclean := (hplain it hit).clean hquad
      exact ⟨it.ip, it.gateway, rfl,
        (unbroken_of_validIpv4 hquad (hplain it hit).ip).newline, hclean.ip,
        hclean.gateway⟩) hsecond
    split_ifs at hend with hfailed
    · obtain ⟨rfl, rfl, rfl⟩ := exec_pure_iff.mp hend
      rw [List.append_nil]
      exact .incomplete hreply hpassed hswept hfailed
    · obtain ⟨result, h₅, es₃, es₄, rfl, hsave, hret⟩ := exec_do_iff.mp hend
      obtain ⟨fault, rfl, hA, rfl⟩ := exec_saveRoutesLocked.mp hsave
      obtain ⟨rfl, rfl, rfl⟩ := exec_pure_iff.mp hret
      rw [List.append_nil]
      exact .rewritten hreply hpassed hswept (by simpa using hfailed) hA

theorem exec_loadGlobalRouteLocked {current : Bytes × Bool} {r : (Bytes × Bool) × Except Bytes Unit}
    (hrun : Exec Host.Answers (loadGlobalRouteLocked current) h es r h') :
    ∃ reply, es = [⟨.readGlobal, reply⟩] ∧ h' = h := by
  obtain ⟨reply, h₁, es', rfl, ⟨-, rfl⟩, hread⟩ := exec_lift_do_iff.mp hrun
  refine ⟨reply, ?_⟩
  cases reply <;> obtain ⟨rfl, -, rfl⟩ := exec_pure_iff.mp hread <;> exact ⟨rfl, rfl⟩

/-- **What `start` can do**: read the settings, then load the routes. -/
theorem exec_start (hquad : Canonical) {m : Memory}
    (hfile : ∀ content, h.routesFile = some content → PlainFile content)
    (hrun : Exec Host.Answers start h es m h') :
    ∃ reply es' e, es = ⟨.readGlobal, reply⟩ :: es' ∧
      LoadOutcome h es' (m.installedRoutes, e) h' := by
  obtain ⟨settings, h₁, es₁, es₂, rfl, hglobal, hrest⟩ := exec_do_iff.mp hrun
  obtain ⟨reply, rfl, rfl⟩ := exec_loadGlobalRouteLocked hglobal
  obtain ⟨⟨routes, e⟩, h₂, es₂, es₃, rfl, hload, hret⟩ := exec_do_iff.mp hrest
  obtain ⟨rfl, rfl, rfl⟩ := exec_pure_iff.mp hret
  rw [List.append_nil]
  exact ⟨reply, es₂, e, rfl, exec_loadRoutesLocked hquad hfile hload⟩

end IpRouter.RouteManager
