import IpRouter.RouteManager.Coherence

/-!
# Failed operations

An operation that returns `false` leaves the memory of the process as it was
(`atomic_of_error`). It also leaves the host as it was, as far as its own
compensation succeeds: `remove` and `remove_system` put the system route back
when the file cannot be written, and `add` puts the file back when the system
refuses the route. The order matters: `add` writes the file before it touches the
system route table, the removals after.
-/

namespace IpRouter.RouteManager

open Theory

/-- A removal could not put its system route back. -/
def Done.ReaddFailed (l : Done) : Prop := ∃ e ∈ l.calls, readdFails (.op l.op) e.1 e.2 = true

/-- An addition the system refused could not put the file back: its last two calls failed. -/
def Done.RollbackFailed (l : Done) : Prop :=
  ∃ before destination gateway error content fault, l.calls =
    before ++ [⟨.addSystemRoute destination gateway, .error error⟩,
      ⟨.replaceRoutes content, some fault⟩]

/-- What an operation that failed with the calls `l.calls` left of the host, `m` being the index. -/
structure Undone (l : Done) (m : Routes) (h h' : Host) : Prop where
  /-- The settings file is as before. -/
  globalFile : h'.globalFile = h.globalFile
  /-- The system route table is as before, unless the compensating re-add of a removal failed. -/
  kernel : h'.kernel = h.kernel ∨ l.ReaddFailed
  /-- The route database, if it was the encoding of the index, is as before, unless the compensating
  save of an addition failed. -/
  routesFile : h.routesFile = some (encodeRoutes m) → h'.routesFile = h.routesFile ∨
    l.RollbackFailed

variable {o : Op} {m m' : Routes} {h h₁ h' : Host} {es : List HostEvent} {e : Bytes}
  {r : Except Bytes Unit}

theorem Undone.of_eq {l : Done} (hg : h'.globalFile = h.globalFile) (hk : h'.kernel = h.kernel)
    (hf : h'.routesFile = h.routesFile) : Undone l m h h' :=
  ⟨hg, Or.inl hk, fun _ => Or.inl hf⟩

theorem undone_of_add {destination gateway key : Bytes} {metadata : RouteMetadata}
    {now : ℤ} {ttl : ℤ} (htime : h₁ = { h with clock := now })
    (ho : AddOutcome Host.Answers m destination gateway key metadata h₁ es (m', .error e) h') :
    m' = m ∧ Undone ⟨.add destination gateway key ttl, ⟨.time, now⟩ :: es, r⟩ m h h' := by
  subst htime
  cases ho with
  | conflict _ _ _ => exact ⟨rfl, .of_eq rfl rfl rfl⟩
  | unsaved _ save =>
    subst save
    exact ⟨rfl, .of_eq rfl rfl rfl⟩
  | @refused _ fault _ _ _ free save route rollback =>
    subst save route
    cases fault with
    | none =>
      subst rollback
      exact ⟨rfl, rfl, Or.inl rfl, fun hfile => Or.inl hfile.symm⟩
    | some f =>
      subst rollback
      exact ⟨rfl, rfl, Or.inl rfl, fun _ => Or.inr ⟨[_, _], _, _, _, _, _, rfl⟩⟩

theorem undone_of_delete {destination gateway : Bytes} (before : List HostEvent)
    (hop : ∀ e, readdFails (.op o) (.addSystemRoute destination gateway) (.error e) = true)
    (ho : DeleteOutcome Host.Answers m destination gateway h es (m', .error e) h') :
    m' = m ∧ Undone ⟨o, before ++ es, r⟩ m h h' := by
  cases ho with
  | refused route =>
    subst route
    exact ⟨rfl, .of_eq rfl rfl rfl⟩
  | @restored _ _ _ reply _ _ _ route save readd =>
    obtain ⟨hkernel, rfl⟩ := route
    subst save
    cases reply with
    | ok u =>
      subst readd
      refine ⟨rfl, .of_eq rfl ?_ rfl⟩
      show Function.update (Function.update h.kernel destination none) destination
        (some gateway) = h.kernel
      rw [Function.update_idem, ← hkernel, Function.update_eq_self]
    | error e =>
      subst readd
      exact ⟨rfl, rfl, Or.inr ⟨⟨.addSystemRoute destination gateway, .error e⟩, by simp, hop e⟩,
        fun _ => Or.inl rfl⟩

/-- **An operation that fails is undone**: the memory is exactly what it was, and the host is as far
as the operation's own compensation succeeded. -/
theorem atomic_of_error [Platform] {s s' : Service} {l : Done} {e : Bytes}
    (hstep : OpStep Env.any s l s') (hfailed : l.result = .error e) :
    s'.memory = s.memory ∧ Undone l s.routes s.host s'.host := by
  obtain ⟨o, es, r⟩ := l
  obtain rfl : r = .error e := hfailed
  -- an operation on the index leaves the rest of the memory alone
  have hindex : ∀ {l : Done}, s'.memory = { s.memory with installedRoutes := s'.routes } →
      s'.routes = s.routes ∧ Undone l s.routes s.host s'.host →
      s'.memory = s.memory ∧ Undone l s.routes s.host s'.host :=
        fun hmem hu => ⟨by rw [hmem, hu.1], hu.2⟩
  cases o with
  | add destination gateway key ttl =>
    obtain ⟨hrun, hmem⟩ := opStep_add.mp hstep
    obtain ⟨now, h₁, es', rfl, htime, ⟨-, -, rfl, rfl, hr⟩ | ⟨-, ho⟩⟩ := exec_add hrun
    · exact hindex hmem ⟨(Prod.mk.inj hr).1, .of_eq (by rw [htime]) (by rw [htime]) (by rw [htime])⟩
    · exact hindex hmem (undone_of_add htime ho)
  | remove key destination gateway =>
    obtain ⟨hrun, hmem⟩ := opStep_remove.mp hstep
    rcases exec_remove hrun with ⟨-, hh, e, hr⟩ | ⟨-, ho⟩
    · exact hindex hmem ⟨(Prod.mk.inj hr).1, .of_eq (by rw [hh]) (by rw [hh]) (by rw [hh])⟩
    · exact hindex hmem (undone_of_delete [] (fun _ => rfl) ho)
  | removeSystem destination gateway =>
    obtain ⟨hrun, hmem⟩ := opStep_removeSystem.mp hstep
    obtain ⟨listing, h₁, es', rfl, rfl, ⟨-, hh, e, hr⟩ | ho⟩ := exec_removeSystem hrun
    · exact hindex hmem ⟨(Prod.mk.inj hr).1, .of_eq (by rw [hh]) (by rw [hh]) (by rw [hh])⟩
    · exact hindex hmem (undone_of_delete [⟨.listSystemRoutes, listing⟩] (fun _ => rfl) ho)
  | expire => cases (opStep_expire hstep).2.1
  | setGlobalRoute gateway force =>
    rcases exec_setGlobalRoute (opStep_setGlobalRoute.mp hstep) with ⟨-, hh, e, hr⟩ |
      ⟨fault, -, hA, hr⟩
    · exact ⟨(Prod.mk.inj hr).1, .of_eq (by rw [hh]) (by rw [hh]) (by rw [hh])⟩
    · cases fault with
      | none =>
        rcases hr with ⟨-, hr⟩ | ⟨hne, -⟩
        · cases (Prod.mk.inj hr).2
        · exact absurd rfl hne
      | some f =>
        have hh : s'.host = s.host := hA
        rcases hr with ⟨hf, -⟩ | ⟨-, e, hr⟩
        · cases hf
        · exact ⟨(Prod.mk.inj hr).1, .of_eq (by rw [hh]) (by rw [hh]) (by rw [hh])⟩

/-- The system refuses a route that is already in the file. -/
theorem atomic_of_error_refused :
    ∃ (s s' : Service) (l : Done), s.host.routesFile = some (encodeRoutes s.routes) ∧
      l.result = .error (text "change route failed") ∧ s'.memory = s.memory ∧
      Undone l s.routes s.host s'.host := by
  let _ := quadPlatform
  let s₀ : Service := ⟨⟨none, none, fun _ => none, 0⟩, ⟨OrdMap.empty, [], false⟩⟩
  let s₁ := (s₀.play (.add (text "10.0.0.1") (text "10.0.0.254") (text "a") 60) []).2
  let step :=
    s₁.play (.add (text "10.0.0.2") (text "10.0.0.254") (text "b") 0) [{}, {}, { ok := false }]
  have hresult : step.1.result = .error (text "change route failed") := rfl
  exact ⟨s₁, step.2, step.1, rfl, hresult, atomic_of_error (s₁.opStep_play _ _) hresult⟩

end IpRouter.RouteManager
