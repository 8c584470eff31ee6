import IpRouter.RouteManager.Adding

/-!
# Additions in any order

Several clients may add at once, and `routes_mutex` takes them in some order.
When they agree with each other and with the index (`Consistent`), the order does
not matter: every addition succeeds, the index and the database at the end are
the same, the system route table has every target through its gateway, and
`add_system_route` has been called once for each target that was new
(`additions_commute`). Which addition makes that call, and which ones only share
or refresh, does depend on the order.

`AllAdded` says it of a run that makes the additions in the order of the list;
each step does its part (`OpStep.add_once`), and the list may be permuted
(`AllAdded.perm`).
-/

namespace IpRouter.RouteManager

open Theory

/-! ### Additions -/

/-- The arguments of an `add`. -/
structure Addition where
  /-- The key. -/
  key : Bytes
  /-- The target. -/
  ip : Bytes
  /-- The next hop. -/
  gateway : Bytes
  /-- The time to live. -/
  ttl : ℤ

/-- The operation. -/
def Addition.op (a : Addition) : Op := .add a.ip a.gateway a.key a.ttl

/-- What it makes of the index. -/
def Addition.put (now : ℤ) (m : Routes) (a : Addition) : Routes :=
  m.set a.key a.ip (newTarget a.gateway now a.ttl)

/-- **Additions that go together**, and with the index. -/
structure Consistent (now : ℤ) (L : List Addition) (m : Routes) : Prop where
  /-- One target, one gateway. -/
  gateway : ∀ a ∈ L, ∀ b ∈ L, a.ip = b.ip → a.gateway = b.gateway
  /-- One reference, one time to live. -/
  ttl : ∀ a ∈ L, ∀ b ∈ L, a.key = b.key → a.ip = b.ip → a.ttl = b.ttl
  /-- A target in use is used through its gateway. -/
  used : ∀ a ∈ L, ∀ key gateway, m.refs key a.ip = some gateway → gateway = a.gateway
  /-- The times to live fit. -/
  fits : ∀ a ∈ L, 0 < a.ttl → a.ttl ≤ int64Max - now

theorem Consistent.perm {now : ℤ} {L L' : List Addition} {m : Routes} (h : Consistent now L m)
    (hp : L'.Perm L) :
    Consistent now L' m where
  gateway a ha b hb := h.gateway a (hp.mem_iff.mp ha) b (hp.mem_iff.mp hb)
  ttl a ha b hb := h.ttl a (hp.mem_iff.mp ha) b (hp.mem_iff.mp hb)
  used a ha := h.used a (hp.mem_iff.mp ha)
  fits a ha := h.fits a (hp.mem_iff.mp ha)

/-- After the first addition the others still go together with the index. -/
theorem Consistent.tail {now : ℤ} {L : List Addition} {m : Routes} {a : Addition}
    (h : Consistent now (a :: L) m) :
    Consistent now L (a.put now m) where
  gateway b hb c hc := h.gateway b (List.mem_cons_of_mem _ hb) c (List.mem_cons_of_mem _ hc)
  ttl b hb c hc := h.ttl b (List.mem_cons_of_mem _ hb) c (List.mem_cons_of_mem _ hc)
  used b hb key gateway hr := by
    rw [Addition.put, Routes.refs_set, Refs.set] at hr
    split_ifs at hr with hk
    · obtain rfl := Option.some.inj hr
      exact h.gateway a List.mem_cons_self b (List.mem_cons_of_mem _ hb) hk.2.symm
    · exact h.used b (List.mem_cons_of_mem _ hb) key gateway hr
  fits b hb := h.fits b (List.mem_cons_of_mem _ hb)

/-- Two references may be set in either order, if they are not the same or set the same. -/
theorem Routes.set_comm (m : Routes) {key key' ip ip' : Bytes} {metadata metadata' : RouteMetadata}
    (h : key = key' → ip = ip' → metadata = metadata') :
    (m.set key ip metadata).set key' ip' metadata' =
      (m.set key' ip' metadata').set key ip metadata := by
  by_cases hk : key = key'
  · subst hk
    simp only [Routes.set, OrdMap.find_insert_self, Option.getD_some, OrdMap.insert_insert]
    rw [OrdMap.insert_comm _ (h rfl)]
  · simp only [Routes.set, OrdMap.find_insert, hk, Ne.symm hk, if_false]
    exact OrdMap.insert_comm _ fun h => absurd h hk

/-- The index does not depend on the order. -/
theorem Consistent.foldl_put {now : ℤ} {L L' : List Addition} {m : Routes}
    (h : Consistent now L m) (hp : L.Perm L') (m₀ : Routes) :
    L.foldl (Addition.put now) m₀ = L'.foldl (Addition.put now) m₀ := by
  refine hp.foldl_eq' (fun a ha b hb m => ?_) m₀
  refine Routes.set_comm m fun hkey hip => ?_
  rw [h.gateway a ha b hb hip, h.ttl a ha b hb hkey hip]

/-- No key holds the target. -/
def Routes.Unused (m : Routes) (ip : Bytes) : Prop := ∀ key, m.lookup key ip = none

instance (m : Routes) (ip : Bytes) : Decidable (m.Unused ip) :=
  decidable_of_iff _ Routes.firstReference_eq_none

theorem Routes.unused_set {m : Routes} {key ip : Bytes} {metadata : RouteMetadata} {ip' : Bytes} :
    (m.set key ip metadata).Unused ip' ↔ ip' ≠ ip ∧ m.Unused ip' := by
  simp only [Unused, lookup_set]
  constructor
  · intro h
    have hne : ip' ≠ ip := by
      rintro rfl
      simpa using h key
    exact ⟨hne, fun key' => by simpa [hne] using h key'⟩
  · rintro ⟨hne, h⟩ key'
    simp [hne, h key']

/-- Whether this is an `add_system_route` of the target. -/
def installs (ip : Bytes) : HostEvent → Bool
  | ⟨.addSystemRoute destination _, _⟩ => destination = ip
  | _ => false

/-! ### One addition -/

variable [Platform] {s s' : Service} {now : ℤ}

/-- **An addition that goes together with the index succeeds**, calls `add_system_route` if no key
holds the target, and keeps the system route table what the index says. -/
theorem OpStep.add_once {a : Addition} {l : Done} (hs : Coherent s.routes.refs s.host.kernel)
    (hused : ∀ key gateway, s.routes.refs key a.ip = some gateway → gateway = a.gateway)
    (hfits : 0 < a.ttl → a.ttl ≤ int64Max - now) (hstep : OpStep (Env.calm now) s l s')
    (hop : l.op = a.op) :
    l.result = .ok () ∧ s'.routes = a.put now s.routes ∧
      s'.host.routesFile = some (encodeRoutes s'.routes) ∧
      s'.host.kernel = Function.update s.host.kernel a.ip (some a.gateway) ∧
      Coherent s'.routes.refs s'.host.kernel ∧
      ∀ ip, l.calls.countP (installs ip) = if ip = a.ip ∧ s.routes.Unused ip then 1 else 0 := by
  obtain ⟨o, es, r⟩ := l
  obtain rfl : o = .add a.ip a.gateway a.key a.ttl := hop
  obtain ⟨hany, hnow, hok⟩ := hstep.of_calm
  cases added_of_succeeds hany hnow hfits hok with
  | vetoed _ used ne => exact absurd (hused _ _ used) ne
  | @shared group _ used routes file kernel =>
    have hkernel : s.host.kernel a.ip = some a.gateway := (hs _ _).mpr ⟨group, used⟩
    refine ⟨rfl, routes, file, by rw [kernel, ← hkernel, Function.update_eq_self], ?_, fun ip => ?_⟩
    · have hmove := Move.share (T := s.host.kernel) a.key group a.ip a.gateway used
      rw [routes, Routes.refs_set, newTarget_gateway, kernel]
      exact hmove.coherent hs
    · have hnot : ¬ (ip = a.ip ∧ s.routes.Unused ip) := by
        rintro ⟨rfl, hunused⟩
        rw [Routes.refs_eq_none.mpr (hunused group)] at used
        cases used
      simp [hnot, installs]
  | installed free routes file kernel =>
    refine ⟨rfl, routes, file, kernel, ?_, fun ip => ?_⟩
    · have hmove := Move.acquire (T := s.host.kernel) a.key a.ip a.gateway fun key =>
        Routes.refs_eq_none.mpr (free key)
      rw [routes, Routes.refs_set, newTarget_gateway, kernel]
      exact hmove.coherent hs
    · by_cases hip : ip = a.ip
      · subst hip
        have hunused : s.routes.Unused a.ip := free
        simp [hunused, installs]
      · simp [hip, Ne.symm hip, installs]

/-! ### All of them -/

/-- **All additions were made**: they succeeded, their references are in the index and the index in
the database, the system has the routes, and got those it did not have once. -/
structure AllAdded (now : ℤ) (L : List Addition) (s : Service) (ls : List Done)
    (s' : Service) : Prop where
  /-- Every addition succeeded. -/
  ok : ∀ l ∈ ls, l.result = .ok ()
  /-- The index. -/
  routes : s'.routes = L.foldl (Addition.put now) s.routes
  /-- The database. -/
  file : s'.host.routesFile = if L.isEmpty then
    s.host.routesFile else some (encodeRoutes (L.foldl (Addition.put now) s.routes))
  /-- The routes to the targets that were added. -/
  kernel : ∀ a ∈ L, s'.host.kernel a.ip = some a.gateway
  /-- The other routes. -/
  others : ∀ ip, (∀ a ∈ L, a.ip ≠ ip) → s'.host.kernel ip = s.host.kernel ip
  /-- The calls of `add_system_route`. -/
  installs : ∀ ip, (ls.flatMap (·.calls)).countP (RouteManager.installs ip) =
    if (∃ a ∈ L, a.ip = ip) ∧ s.routes.Unused ip then 1 else 0

omit [Platform] in
/-- It does not depend on the order in which the additions are listed. -/
theorem AllAdded.perm {L L' : List Addition} {ls : List Done} (h : AllAdded now L s ls s')
    (hL : Consistent now L s.routes) (hp : L.Perm L') : AllAdded now L' s ls s' where
  ok := h.ok
  routes := h.routes.trans (hL.foldl_put hp _)
  file := by rw [h.file, hL.foldl_put hp, hp.isEmpty_eq]
  kernel a ha := h.kernel a (hp.mem_iff.mpr ha)
  others ip hip := h.others ip fun a ha => hip a (hp.mem_iff.mp ha)
  installs ip := by simpa only [hp.mem_iff] using h.installs ip

/-- Made in the order of the list, they are all made. -/
theorem allAdded_of_run {L : List Addition} {ls : List Done}
    (hs : Coherent s.routes.refs s.host.kernel) (hL : Consistent now L s.routes)
    (hrun : Run (OpStep (Env.calm now)) s ls s') (hops : ls.map (·.op) = L.map Addition.op) :
    AllAdded now L s ls s' := by
  induction hrun generalizing L with
  | nil =>
    obtain rfl : L = [] := List.map_eq_nil_iff.mp hops.symm
    exact ⟨by simp, rfl, rfl, by simp, fun _ _ => rfl, by simp⟩
  | @cons s s₁ s' l ls hstep _ ih =>
    cases L with
    | nil => cases hops
    | cons a L =>
      obtain ⟨hop, hops⟩ := List.cons.inj hops
      obtain ⟨hok, hroutes, hfile, hkernel, hcoh, hcount⟩ :=
        hstep.add_once hs (hL.used a List.mem_cons_self) (hL.fits a List.mem_cons_self) hop
      have hrest := ih hcoh (hroutes ▸ hL.tail) hops
      refine ⟨?_, ?_, ?_, ?_, ?_, ?_⟩
      · intro l' hl'
        rcases List.mem_cons.mp hl' with rfl | hl'
        · exact hok
        · exact hrest.ok l' hl'
      · rw [hrest.routes, hroutes, List.foldl_cons]
      · rw [hrest.file, hfile, hroutes]
        cases L <;> rfl
      · intro b hb
        by_cases hlater : ∃ c ∈ L, c.ip = b.ip
        · obtain ⟨c, hc, hip⟩ := hlater
          rw [← hip, hrest.kernel c hc, hL.gateway c (List.mem_cons_of_mem _ hc) b hb hip]
        · rcases List.mem_cons.mp hb with rfl | hb
          · rw [hrest.others _ fun c hc hip => hlater ⟨c, hc, hip⟩, hkernel, Function.update_self]
          · exact absurd ⟨b, hb, rfl⟩ hlater
      · intro ip hip
        rw [hrest.others ip fun c hc => hip c (List.mem_cons_of_mem _ hc), hkernel,
          Function.update_of_ne (Ne.symm (hip a List.mem_cons_self))]
      · intro ip
        rw [List.flatMap_cons, List.countP_append, hcount, hrest.installs, hroutes]
        simp only [Addition.put, Routes.unused_set, List.mem_cons, exists_eq_or_imp]
        by_cases hip : ip = a.ip
        · simp [hip]
        · simp [hip, Ne.symm hip]

/-- Additions can always be made one after the other. -/
theorem exists_run_calm (L : List Addition) (s : Service) : ∃ ls s',
    Run (OpStep (Env.calm now)) s ls s' ∧ ls.map (·.op) = L.map Addition.op := by
  induction L generalizing s with
  | nil => exact ⟨[], s, .nil, rfl⟩
  | cons a L ih =>
    obtain ⟨es, ⟨memory, r⟩, host, hexec⟩ :=
      exists_exec (calm_total now) (a.op.prog s.memory) s.host
    have hstep : OpStep (Env.calm now) s ⟨a.op, es, r⟩ ⟨host, memory⟩ := hexec
    obtain ⟨ls, s', hrun, hops⟩ := ih ⟨host, memory⟩
    exact ⟨_, s', .cons hstep hrun, by simp [hops]⟩

/-- **Consistent additions commute, and install each route once.** -/
theorem additions_commute {L L' : List Addition} (hs : Coherent s.routes.refs s.host.kernel)
    (hL : Consistent now L s.routes) (hp : L'.Perm L) :
    (∃ ls s', Run (OpStep (Env.calm now)) s ls s' ∧ ls.map (·.op) = L'.map Addition.op) ∧
      ∀ ls s', Run (OpStep (Env.calm now)) s ls s' → ls.map (·.op) = L'.map Addition.op →
        AllAdded now L s ls s' :=
  ⟨exists_run_calm L' s, fun _ _ hrun hops =>
    (allAdded_of_run hs (hL.perm hp) hrun hops).perm (hL.perm hp) hp⟩

omit [Platform] in
/-- One key more takes the target another key holds, and the other key takes a new one. -/
theorem additions_commute_swap :
    ∃ s : Service, s.routes.refs (text "a") (text "10.0.0.1") = some (text "10.0.0.254") ∧
    let x : Addition := ⟨text "b", text "10.0.0.1", text "10.0.0.254", 0⟩
    let y : Addition := ⟨text "a", text "10.0.0.2", text "10.0.0.253", 60⟩
    ∀ ls s', Run (@OpStep quadPlatform (Env.calm 7)) s ls s' →
      ls.map (·.op) = [y, x].map Addition.op →
      AllAdded 7 [x, y] s ls s' := by
  let _ := quadPlatform
  let s₀ : Service := ⟨bareHost, ⟨OrdMap.empty, [], false⟩⟩
  let out := s₀.play (.add (text "10.0.0.1") (text "10.0.0.254") (text "a") 60) []
  have hfresh : s₀.Fresh := ⟨rfl, fun _ => rfl⟩
  have hs : CoherentState out.2.routes out.2.host :=
    coherent_step hfresh.coherent ((s₀.opStep_play _ _).without (by decide))
  have hroutes : out.2.routes = Routes.set OrdMap.empty (text "a") (text "10.0.0.1")
      ⟨text "10.0.0.254", 60, 60, 0⟩ := by
    decide
  refine ⟨out.2, by decide, ?_⟩
  intro x y
  have hL : Consistent 7 [x, y] out.2.routes := by
    refine ⟨by decide, by decide, ?_, by decide⟩
    intro a ha key gateway hr
    rw [hroutes, Routes.refs_set, Refs.set] at hr
    split_ifs at hr with hk
    · obtain rfl := Option.some.inj hr
      rcases List.mem_pair.mp ha with rfl | rfl
      · rfl
      · exact absurd hk.2 (by decide)
    · cases hr
  exact (additions_commute hs.1 hL (.swap ..)).2

end IpRouter.RouteManager
