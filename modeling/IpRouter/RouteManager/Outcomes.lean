import IpRouter.RouteManager.Operations

/-!
# What the operations can do

One inversion for each operation: the executions of its program, listed by what
the host answered. `AddOutcome`, `DeleteOutcome` and `TargetOutcome` have one
constructor for each way through the code, with the guards that lead there, the
calls made, and the index and the host left behind. Everything proved later about
an operation is by cases on these.

They hold on every host, so the conditions on what the host may answer are kept
in the calls themselves.
-/

namespace IpRouter.RouteManager

open Theory

variable [Platform] {A : Answers Host HostCall HostCall.Reply} {m : Routes} {h h' : Host}
  {es : List HostEvent}

/-- The result of an operation on the index. -/
abbrev Result := Routes × Except Bytes Unit

theorem exec_saveRoutesLocked {r : Except Bytes Unit} :
    Exec A (saveRoutesLocked m) h es r h' ↔
      ∃ fault, es = [⟨.replaceRoutes (encodeRoutes m), fault⟩] ∧
      A h (.replaceRoutes (encodeRoutes m)) fault h' ∧ r = routesSaved fault := by
  constructor
  · intro hrun
    obtain ⟨fault, h₁, es', rfl, hA, ⟨⟩⟩ := exec_lift_do_iff.mp hrun
    exact ⟨fault, rfl, hA, rfl⟩
  · rintro ⟨fault, rfl, hA, rfl⟩
    exact exec_lift_do_iff.mpr ⟨fault, h', [], rfl, hA, .ret⟩

/-- A save is reported as done exactly when the file was replaced. -/
theorem routesSaved_eq_ok {fault : Option Fault} {u : Unit} :
    routesSaved fault = .ok u ↔ fault = none :=
  replaceResult_eq_ok

/-! ### Adding -/

/-- What `add` can do once it has computed the reference `metadata` to store. -/
inductive AddOutcome (A : Answers Host HostCall HostCall.Reply) (m : Routes)
    (destination gateway key : Bytes) (metadata : RouteMetadata) (h : Host) : List HostEvent →
    Result → Host → Prop
  /-- The target is in use through another gateway, and not by this key through this one. -/
  | conflict {group : Bytes} {existing : RouteMetadata}
      (own : m.refs key destination ≠ some gateway)
      (first : m.firstReference destination = some (group, existing))
      (other : existing.gateway ≠ gateway) :
      AddOutcome A m destination gateway key metadata h []
        (m, .error (conflictError destination existing.gateway group)) h
  /-- The index could not be saved and is put back. -/
  | unsaved {fault : Fault} {e : Bytes} {h' : Host} (free : ∀ group existing,
      m.firstReference destination = some (group, existing) →
      m.refs key destination = some gateway ∨
        existing.gateway = gateway)
      (save : A h (.replaceRoutes (encodeRoutes (m.set key destination metadata)))
        (some fault) h') :
      AddOutcome A m destination gateway key metadata h
        [⟨.replaceRoutes (encodeRoutes (m.set key destination metadata)), some fault⟩]
          (m, .error e) h'
  /-- A key already refers to the target through this gateway: only the index changes. -/
  | shared {key' : Bytes} {h' : Host} (used : m.refs key' destination = some gateway)
      (save : A h (.replaceRoutes (encodeRoutes (m.set key destination metadata))) none h') :
      AddOutcome A m destination gateway key metadata h
        [⟨.replaceRoutes (encodeRoutes (m.set key destination metadata)), none⟩]
        (m.set key destination metadata, .ok ()) h'
  /-- No key refers to the target, and the system route is added. -/
  | installed {u : Unit} {h₁ h' : Host} (free : ∀ key', m.lookup key' destination = none)
      (save : A h (.replaceRoutes (encodeRoutes (m.set key destination metadata))) none h₁)
      (route : A h₁ (.addSystemRoute destination gateway) (.ok u) h') :
      AddOutcome A m destination gateway key metadata h
        [⟨.replaceRoutes (encodeRoutes (m.set key destination metadata)), none⟩,
          ⟨.addSystemRoute destination gateway, .ok u⟩]
        (m.set key destination metadata, .ok ()) h'
  /-- No key refers to the target, and the system refuses the route: index and file are put back. -/
  | refused {e : Bytes} {fault : Option Fault} {h₁ h₂ h' : Host}
      (free : ∀ key', m.lookup key' destination = none)
      (save : A h (.replaceRoutes (encodeRoutes (m.set key destination metadata))) none h₁)
      (route : A h₁ (.addSystemRoute destination gateway) (.error e) h₂)
      (rollback : A h₂ (.replaceRoutes (encodeRoutes m)) fault h') :
      AddOutcome A m destination gateway key metadata h
        [⟨.replaceRoutes (encodeRoutes (m.set key destination metadata)), none⟩,
          ⟨.addSystemRoute destination gateway, .error e⟩, ⟨.replaceRoutes (encodeRoutes m), fault⟩]
        (m, .error e) h'

theorem exec_commit {m candidate : Routes} {r : Result}
    (hrun : Exec A (commit m candidate) h es r h') :
    (∃ fault e, es = [⟨.replaceRoutes (encodeRoutes candidate), some fault⟩] ∧
      A h (.replaceRoutes (encodeRoutes candidate)) (some fault) h' ∧ r = (m, .error e)) ∨
    (es = [⟨.replaceRoutes (encodeRoutes candidate), none⟩] ∧
      A h (.replaceRoutes (encodeRoutes candidate)) none h' ∧ r = (candidate, .ok ())) := by
  obtain ⟨result, h₁, es₁, es₂, rfl, hsave, hrun⟩ := exec_do_iff.mp hrun
  obtain ⟨fault, rfl, hA, rfl⟩ := exec_saveRoutesLocked.mp hsave
  cases fault with
  | none =>
    obtain ⟨rfl, rfl, rfl⟩ := exec_pure_iff.mp hrun
    exact Or.inr ⟨rfl, hA, rfl⟩
  | some f =>
    cases hr : routesSaved (some f) with
    | ok u => cases routesSaved_eq_ok.mp hr
    | error e =>
      rw [hr] at hrun
      obtain ⟨rfl, rfl, rfl⟩ := exec_pure_iff.mp hrun
      exact Or.inl ⟨f, e, rfl, hA, rfl⟩

theorem exec_addRoute {destination gateway key : Bytes} {metadata : RouteMetadata} {r : Result}
    (hnone : m.firstReference destination = none)
    (hrun : Exec A (addRoute m destination gateway key metadata) h es r h') :
    AddOutcome A m destination gateway key metadata h es r h' := by
  have free := Routes.firstReference_eq_none.mp hnone
  obtain ⟨result, h₁, es₁, es₂, rfl, hsave, hrun⟩ := exec_do_iff.mp hrun
  obtain ⟨fault, rfl, hA, rfl⟩ := exec_saveRoutesLocked.mp hsave
  cases fault with
  | some f =>
    cases hr : routesSaved (some f) with
    | ok u => cases routesSaved_eq_ok.mp hr
    | error e =>
      rw [hr] at hrun
      obtain ⟨rfl, rfl, rfl⟩ := exec_pure_iff.mp hrun
      exact .unsaved (fun group existing hf => by rw [hnone] at hf; cases hf) hA
  | none =>
    obtain ⟨reply, h₂, es', rfl, hroute, hrun⟩ := exec_lift_do_iff.mp hrun
    cases reply with
    | ok u =>
      obtain ⟨rfl, rfl, rfl⟩ := exec_pure_iff.mp hrun
      exact .installed free hA hroute
    | error e =>
      obtain ⟨result, h₃, es₁, es₂, rfl, hback, hret⟩ := exec_do_iff.mp hrun
      obtain ⟨fault, rfl, hback, -⟩ := exec_saveRoutesLocked.mp hback
      obtain ⟨rfl, rfl, rfl⟩ := exec_pure_iff.mp hret
      exact .refused free hA hroute hback

theorem exec_addTarget {destination gateway key : Bytes} {metadata : RouteMetadata} {r : Result}
    (hrun : Exec A (addTarget m destination gateway key metadata) h es r h') :
    AddOutcome A m destination gateway key metadata h es r h' := by
  unfold addTarget at hrun
  split_ifs at hrun with hown
  · rcases exec_commit hrun with ⟨fault, e, rfl, hA, rfl⟩ | ⟨rfl, hA, rfl⟩
    · exact .unsaved (fun _ _ _ => Or.inl hown) hA
    · exact .shared hown hA
  · cases hfirst : m.firstReference destination with
    | none =>
      rw [hfirst] at hrun
      exact exec_addRoute hfirst hrun
    | some found =>
      obtain ⟨group, existing⟩ := found
      simp only [hfirst] at hrun
      split_ifs at hrun with hother
      · obtain ⟨rfl, rfl, rfl⟩ := exec_pure_iff.mp hrun
        exact .conflict hown hfirst hother
      · have hsame : existing.gateway = gateway := not_not.mp hother
        rcases exec_commit hrun with ⟨fault, e, rfl, hA, rfl⟩ | ⟨rfl, hA, rfl⟩
        · refine .unsaved (fun group' existing' hf => ?_) hA
          obtain ⟨rfl, rfl⟩ := Prod.mk.injEq .. ▸ Option.some.inj (hfirst.symm.trans hf)
          exact Or.inr hsame
        · exact .shared
            (Routes.refs_eq_some.mpr ⟨existing, Routes.lookup_of_firstReference hfirst, hsame⟩) hA

/-- **What `add` can do**: read the clock, then refuse a time to live that does not fit
or do one of `AddOutcome`. -/
theorem exec_add {destination gateway key : Bytes} {ttl : ℤ} {r : Result}
    (hrun : Exec A (add m destination gateway key ttl) h es r h') :
    ∃ (now : ℤ) (h₁ : Host) (es' : List HostEvent), es = ⟨.time, now⟩ :: es' ∧ A h .time now h₁ ∧
      ((0 < ttl ∧ int64Max - now < ttl ∧ es' = [] ∧ h' = h₁ ∧
          r = (m, .error (text "parameter 'ttl' is too large"))) ∨
        ((0 < ttl → ttl ≤ int64Max - now) ∧
          AddOutcome A m destination gateway key (newTarget gateway now ttl) h₁ es' r h')) := by
  obtain ⟨now, h₁, es', rfl, hA, hrun⟩ := exec_lift_do_iff.mp hrun
  refine ⟨now, h₁, es', rfl, hA, ?_⟩
  split_ifs at hrun with httl
  · obtain ⟨rfl, rfl, rfl⟩ := exec_pure_iff.mp hrun
    exact Or.inl ⟨httl.1, httl.2, rfl, rfl, rfl⟩
  · exact Or.inr ⟨fun h₀ => not_lt.mp fun hlt => httl ⟨h₀, hlt⟩, exec_addTarget hrun⟩

omit [Platform] in
/-- What `add` saves is the new index, which agrees with the old one on the gateway, or the old
one. -/
theorem AddOutcome.saved {destination gateway key content : Bytes} {metadata : RouteMetadata}
    {r : Result} (ho : AddOutcome A m destination gateway key metadata h es r h')
    (hmem : ⟨.replaceRoutes content, none⟩ ∈ es) :
    (content = encodeRoutes (m.set key destination metadata) ∧
      ((∃ key', m.refs key' destination = some gateway) ∨
        ∀ key', m.lookup key' destination = none)) ∨
    content = encodeRoutes m := by
  cases ho with
  | conflict _ _ _ => cases hmem
  | unsaved _ _ => cases List.mem_singleton.mp hmem
  | shared used _ =>
    cases List.mem_singleton.mp hmem
    exact Or.inl ⟨rfl, Or.inl ⟨_, used⟩⟩
  | installed free _ _ =>
    rcases List.mem_cons.mp hmem with heq | hmem
    · cases heq
      exact Or.inl ⟨rfl, Or.inr free⟩
    · cases List.mem_singleton.mp hmem
  | refused free _ _ _ =>
    simp only [List.mem_cons, List.not_mem_nil, or_false] at hmem
    rcases hmem with heq | heq | heq
    · cases heq
      exact Or.inl ⟨rfl, Or.inr free⟩
    · cases heq
    · cases heq
      exact Or.inr rfl

/-! ### Removing -/

/-- What `remove` and `remove_system` can do once they decide to delete the system route. -/
inductive DeleteOutcome (A : Answers Host HostCall HostCall.Reply) (m : Routes)
    (destination gateway : Bytes) (h : Host) : List HostEvent → Result → Host → Prop
  /-- The system refuses to delete the route. -/
  | refused {e : Bytes} {h' : Host}
      (route : A h (.deleteSystemRoute destination gateway) (.error e) h') :
      DeleteOutcome A m destination gateway h [⟨.deleteSystemRoute destination gateway, .error e⟩]
        (m, .error e) h'
  /-- The route and all references to it are removed. -/
  | removed {u : Unit} {h₁ h' : Host}
      (route : A h (.deleteSystemRoute destination gateway) (.ok u) h₁)
      (save : A h₁ (.replaceRoutes (encodeRoutes (m.forget destination gateway))) none h') :
      DeleteOutcome A m destination gateway h
        [⟨.deleteSystemRoute destination gateway, .ok u⟩,
          ⟨.replaceRoutes (encodeRoutes (m.forget destination gateway)), none⟩]
        (m.forget destination gateway, .ok ()) h'
  /-- The index could not be saved: it is put back, and the system route with it. -/
  | restored {u : Unit} {fault : Fault} {e : Bytes} {reply : Except Bytes Unit} {h₁ h₂ h' : Host}
      (route : A h (.deleteSystemRoute destination gateway) (.ok u) h₁)
      (save : A h₁ (.replaceRoutes (encodeRoutes (m.forget destination gateway))) (some fault) h₂)
      (readd : A h₂ (.addSystemRoute destination gateway) reply h') :
      DeleteOutcome A m destination gateway h
        [⟨.deleteSystemRoute destination gateway, .ok u⟩,
          ⟨.replaceRoutes (encodeRoutes (m.forget destination gateway)), some fault⟩,
          ⟨.addSystemRoute destination gateway, reply⟩]
        (m, .error e) h'

theorem exec_deleteRoute {destination gateway : Bytes} {r : Result}
    (hrun : Exec A (deleteRoute m destination gateway) h es r h') :
    DeleteOutcome A m destination gateway h es r h' := by
  obtain ⟨reply, h₁, es', rfl, hroute, hrun⟩ := exec_lift_do_iff.mp hrun
  cases reply with
  | error e =>
    obtain ⟨rfl, rfl, rfl⟩ := exec_pure_iff.mp hrun
    exact .refused hroute
  | ok u =>
    obtain ⟨result, h₂, es₁, es₂, rfl, hsave, hrun⟩ := exec_do_iff.mp hrun
    obtain ⟨fault, rfl, hA, rfl⟩ := exec_saveRoutesLocked.mp hsave
    cases fault with
    | none =>
      obtain ⟨rfl, rfl, rfl⟩ := exec_pure_iff.mp hrun
      exact .removed hroute hA
    | some f =>
      cases hr : routesSaved (some f) with
      | ok u => cases routesSaved_eq_ok.mp hr
      | error e =>
        rw [hr] at hrun
        obtain ⟨reply, h₃, es'', rfl, hback, hrun⟩ := exec_lift_do_iff.mp hrun
        obtain ⟨rfl, rfl, rfl⟩ := exec_pure_iff.mp hrun
        exact .restored hroute hA hback

/-- **What `remove` can do**: refuse at once, or go on to delete a route its key holds. -/
theorem exec_remove {key destination gateway : Bytes} {r : Result}
    (hrun : Exec A (remove m key destination gateway) h es r h') :
    (es = [] ∧ h' = h ∧ ∃ e, r = (m, .error e)) ∨
      (m.refs key destination = some gateway ∧
        DeleteOutcome A m destination gateway h es r h') := by
  unfold remove at hrun
  cases hg : OrdMap.find m key with
  | none =>
    simp only [hg] at hrun
    obtain ⟨rfl, rfl, rfl⟩ := exec_pure_iff.mp hrun
    exact Or.inl ⟨rfl, rfl, _, rfl⟩
  | some group =>
    cases ht : OrdMap.find group destination with
    | none =>
      simp only [hg, ht] at hrun
      obtain ⟨rfl, rfl, rfl⟩ := exec_pure_iff.mp hrun
      exact Or.inl ⟨rfl, rfl, _, rfl⟩
    | some target =>
      simp only [hg, ht] at hrun
      split_ifs at hrun with hgw
      · obtain ⟨rfl, rfl, rfl⟩ := exec_pure_iff.mp hrun
        exact Or.inl ⟨rfl, rfl, _, rfl⟩
      · refine Or.inr ⟨Routes.refs_eq_some.mpr ⟨target, ?_, not_not.mp hgw⟩, exec_deleteRoute hrun⟩
        simp [Routes.lookup, hg, ht]

/-- A key that holds the route goes on to delete it. -/
theorem remove_of_refs {key destination gateway : Bytes}
    (hused : m.refs key destination = some gateway) :
    remove m key destination gateway = deleteRoute m destination gateway := by
  obtain ⟨metadata, hl, rfl⟩ := Routes.refs_eq_some.mp hused
  obtain ⟨group, hg, ht⟩ := Option.bind_eq_some_iff.mp hl
  simp only [remove, hg, ht, ne_eq, not_true_eq_false, if_false]

/-- **What `remove_system` can do**: read the route table, then refuse or go on to delete the
route. -/
theorem exec_removeSystem {destination gateway : Bytes} {r : Result}
    (hrun : Exec A (removeSystem m destination gateway) h es r h') :
    ∃ listing h₁ es', es = ⟨.listSystemRoutes, listing⟩ :: es' ∧ A h .listSystemRoutes listing h₁ ∧
      ((es' = [] ∧ h' = h₁ ∧ ∃ e, r = (m, .error e)) ∨
        DeleteOutcome A m destination gateway h₁ es' r h') := by
  obtain ⟨listing, h₁, es', rfl, hA, hrun⟩ := exec_lift_do_iff.mp hrun
  refine ⟨listing, h₁, es', rfl, hA, ?_⟩
  cases listing with
  | error e =>
    obtain ⟨rfl, rfl, rfl⟩ := exec_pure_iff.mp hrun
    exact Or.inl ⟨rfl, rfl, _, rfl⟩
  | ok routes =>
    simp only at hrun
    split_ifs at hrun
    · exact Or.inr (exec_deleteRoute hrun)
    · obtain ⟨rfl, rfl, rfl⟩ := exec_pure_iff.mp hrun
      exact Or.inl ⟨rfl, rfl, _, rfl⟩

omit [Platform] in
/-- A removal leaves the index, or the index without the route. -/
theorem DeleteOutcome.keeps {P : Routes → Prop} {destination gateway : Bytes}
    {r : Result} (ho : DeleteOutcome A m destination gateway h es r h') (hP : P m)
    (hforget : P (m.forget destination gateway)) :
    P r.1 := by
  cases ho with
  | refused _ | restored _ _ _ => exact hP
  | removed _ _ => exact hforget

omit [Platform] in
/-- What a removal saves is the index without the route. -/
theorem DeleteOutcome.saved {destination gateway content : Bytes}
    {r : Result} (ho : DeleteOutcome A m destination gateway h es r h')
    (hmem : ⟨.replaceRoutes content, none⟩ ∈ es) :
    content = encodeRoutes (m.forget destination gateway) := by
  cases ho with
  | refused _ => cases List.mem_singleton.mp hmem
  | removed _ _ =>
    rcases List.mem_cons.mp hmem with heq | hmem
    · cases heq
    · cases List.mem_singleton.mp hmem
      rfl
  | restored _ _ _ =>
    simp only [List.mem_cons, List.not_mem_nil, or_false] at hmem
    rcases hmem with heq | heq | heq <;> cases heq

/-! ### Expiration -/

/-- What the worker can do at one target. -/
inductive TargetOutcome (A : Answers Host HostCall HostCall.Reply) (now : ℤ) (key ip : Bytes)
    (s : Sweep) (h : Host) :
    List HostEvent → Sweep → Host → Prop
  /-- The target is let be. -/
  | kept (keep : ∀ metadata, s.installed.lookup key ip = some metadata → metadata.keep now = true) :
      TargetOutcome A now key ip s h [] s h
  /-- The target has expired, and another key still refers to it. -/
  | dropped {metadata other : RouteMetadata} {key' : Bytes}
      (found : s.installed.lookup key ip = some metadata)
      (due : metadata.keep now = false) (ne : key' ≠ key)
      (used : s.installed.lookup key' ip = some other) :
      TargetOutcome A now key ip s h []
        ⟨(s.installed.set key ip { metadata with lastAttempt := now }).eraseTarget key ip, true⟩ h
  /-- The target has expired, nobody else refers to it, and its system route is deleted. -/
  | deleted {metadata : RouteMetadata} {u : Unit} {h' : Host}
      (found : s.installed.lookup key ip = some metadata)
      (due : metadata.keep now = false)
      (alone : ∀ key', key' ≠ key → s.installed.lookup key' ip = none)
      (route : A h (.deleteSystemRoute ip metadata.gateway) (.ok u) h') :
      TargetOutcome A now key ip s h [⟨.deleteSystemRoute ip metadata.gateway, .ok u⟩]
        ⟨(s.installed.set key ip { metadata with lastAttempt := now }).eraseTarget key ip, true⟩ h'
  /-- The target has expired, nobody else refers to it, and the system refuses to delete its
  route. -/
  | refused {metadata : RouteMetadata} {e : Bytes} {h' : Host}
      (found : s.installed.lookup key ip = some metadata)
      (due : metadata.keep now = false)
      (alone : ∀ key', key' ≠ key → s.installed.lookup key' ip = none)
      (route : A h (.deleteSystemRoute ip metadata.gateway) (.error e) h') :
      TargetOutcome A now key ip s h [⟨.deleteSystemRoute ip metadata.gateway, .error e⟩]
        ⟨s.installed.set key ip { metadata with lastAttempt := now }, s.changed⟩ h'

omit [Platform] in
theorem exec_expireTarget {now : ℤ} {key ip : Bytes} {s s' : Sweep}
    (hrun : Exec A (expireTarget now key s ip) h es s' h') :
    TargetOutcome A now key ip s h es s' h' := by
  unfold expireTarget at hrun
  cases hl : s.installed.lookup key ip with
  | none =>
    simp only [hl] at hrun
    obtain ⟨rfl, rfl, rfl⟩ := exec_pure_iff.mp hrun
    exact .kept fun metadata hm => by rw [hl] at hm; cases hm
  | some metadata =>
    simp only [hl] at hrun
    have hothers : ∀ key', key' ≠ key →
        (s.installed.set key ip { metadata with lastAttempt := now }).lookup key' ip =
            s.installed.lookup key' ip := by
      intro key' hne
      rw [Routes.lookup_set, if_neg fun hk => hne hk.1]
    split_ifs at hrun with hkeep helse
    · obtain ⟨rfl, rfl, rfl⟩ := exec_pure_iff.mp hrun
      exact .kept fun metadata' hm => by rw [hl] at hm; cases hm; exact hkeep
    · obtain ⟨rfl, rfl, rfl⟩ := exec_pure_iff.mp hrun
      obtain ⟨key', other, hne, hother⟩ := Routes.referencedElsewhere_iff.mp helse
      rw [hothers key' hne] at hother
      exact .dropped hl (by simpa using hkeep) hne hother
    · have halone : ∀ key', key' ≠ key → s.installed.lookup key' ip = none := by
        intro key' hne
        cases hk : s.installed.lookup key' ip with
        | none => rfl
        | some other =>
          refine absurd (Routes.referencedElsewhere_iff.mpr ⟨key', other, hne, ?_⟩) helse
          rw [hothers key' hne, hk]
      obtain ⟨reply, h₁, es', rfl, hA, hrun⟩ := exec_lift_do_iff.mp hrun
      cases reply with
      | ok u =>
        obtain ⟨rfl, rfl, rfl⟩ := exec_pure_iff.mp hrun
        exact .deleted hl (by simpa using hkeep) halone hA
      | error e =>
        obtain ⟨rfl, rfl, rfl⟩ := exec_pure_iff.mp hrun
        exact .refused hl (by simpa using hkeep) halone hA

omit [Platform] in
/-- What the index looks like after the worker erased a target. -/
theorem lookup_erased (m : Routes) (key ip : Bytes) (metadata : RouteMetadata) (key' ip' : Bytes) :
    ((m.set key ip metadata).eraseTarget key ip).lookup key' ip' =
      if key' = key ∧ ip' = ip then none else m.lookup key' ip' := by
  rw [Routes.lookup_eraseTarget]
  split_ifs with hk
  · rfl
  · rw [Routes.lookup_set, if_neg hk]

omit [Platform] in
/-- The worker changes nothing but the reference it is at. -/
theorem TargetOutcome.frame {now : ℤ} {key ip key' ip' : Bytes} {s s' : Sweep}
    (ho : TargetOutcome A now key ip s h es s' h') (hne : ¬ (key' = key ∧ ip' = ip)) :
    s'.installed.lookup key' ip' = s.installed.lookup key' ip' := by
  cases ho with
  | kept _ => rfl
  | dropped _ _ _ _ => rw [lookup_erased, if_neg hne]
  | deleted _ _ _ _ => rw [lookup_erased, if_neg hne]
  | refused _ _ _ _ => rw [Routes.lookup_set, if_neg hne]

omit [Platform] in
/-- What is in the index after the worker was at a target was there before, but perhaps for the
time of the last attempt. -/
theorem TargetOutcome.lookup {now : ℤ} {key ip key' ip' : Bytes} {s s' : Sweep}
    {metadata' : RouteMetadata} (ho : TargetOutcome A now key ip s h es s' h')
    (hl : s'.installed.lookup key' ip' = some metadata') :
    ∃ metadata attempt, s.installed.lookup key' ip' = some metadata ∧
      metadata' = { metadata with lastAttempt := attempt } := by
  by_cases hat : key' = key ∧ ip' = ip
  · cases ho with
    | kept _ => exact ⟨metadata', metadata'.lastAttempt, hl, rfl⟩
    | dropped _ _ _ _ | deleted _ _ _ _ =>
      rw [lookup_erased, if_pos hat] at hl
      cases hl
    | refused found _ _ _ =>
      rw [Routes.lookup_set, if_pos hat] at hl
      obtain rfl := Option.some.inj hl
      obtain ⟨rfl, rfl⟩ := hat
      exact ⟨_, now, found, rfl⟩
  · rw [ho.frame hat] at hl
    exact ⟨metadata', metadata'.lastAttempt, hl, rfl⟩

/-- **What a pass of the worker can do**: read the clock, sweep, and save if anything was erased. -/
theorem exec_expireRoutes {m' : Routes} (hrun : Exec A (expireRoutes m) h es m' h') :
    ∃ (now : ℤ) (h₁ : Host) (swept : Sweep) (es₁ es₂ : List HostEvent) (h₂ : Host),
      es = ⟨.time, now⟩ :: (es₁ ++ es₂) ∧ A h .time now h₁ ∧
      Exec A (Prog.loop (expireGroup now) m.keys ⟨m, false⟩) h₁ es₁ swept h₂ ∧
      m' = swept.installed ∧
      ((swept.changed = false ∧ es₂ = [] ∧ h' = h₂) ∨
        (swept.changed = true ∧
          ∃ fault, es₂ = [⟨.replaceRoutes (encodeRoutes swept.installed), fault⟩] ∧
          A h₂ (.replaceRoutes (encodeRoutes swept.installed)) fault h')) := by
  obtain ⟨now, h₁, es', rfl, hA, hrun⟩ := exec_lift_do_iff.mp hrun
  obtain ⟨swept, h₂, es₁, es₂, rfl, hloop, hrun⟩ := exec_do_iff.mp hrun
  refine ⟨now, h₁, swept, es₁, es₂, h₂, rfl, hA, hloop, ?_⟩
  split_ifs at hrun with hchanged
  · obtain ⟨result, h₃, es₃, es₄, rfl, hsave, hret⟩ := exec_do_iff.mp hrun
    obtain ⟨fault, rfl, hsave, -⟩ := exec_saveRoutesLocked.mp hsave
    obtain ⟨rfl, rfl, rfl⟩ := exec_pure_iff.mp hret
    exact ⟨rfl, Or.inr ⟨hchanged, fault, rfl, hsave⟩⟩
  · obtain ⟨rfl, rfl, rfl⟩ := exec_pure_iff.mp hrun
    exact ⟨rfl, Or.inl ⟨by simpa using hchanged, rfl, rfl⟩⟩

omit [Platform] in
/-- The rule for sweeps: what every target's outcome keeps, and erasing an empty
group keeps, holds at the end. -/
theorem sweep_inv {now : ℤ} {keys : List Bytes} {I : List HostEvent → Sweep → Host → Prop}
    (htarget : ∀ key ip es s h es' s' h', I es s h → TargetOutcome A now key ip s h es' s' h' →
      I (es ++ es') s' h') (hdrop : ∀ key es s h, I es s h →
      I es { s with installed := s.installed.dropIfEmpty key } h) {s s' : Sweep} (h₀ : I [] s h)
    (hrun : Exec A (Prog.loop (expireGroup now) keys s) h es s' h') : I es s' h' := by
  refine exec_loop_inv (fun _ => I) ?_ h₀ hrun
  intro _ key _ es s h es' s' h' _ hI hgroup
  obtain ⟨swept, h₁, es₁, es₂, rfl, htargets, hret⟩ := exec_do_iff.mp hgroup
  obtain ⟨rfl, rfl, rfl⟩ := exec_pure_iff.mp hret
  rw [List.append_nil]
  refine hdrop _ _ _ _ (exec_loop_inv (fun _ es₂ => I (es ++ es₂)) ?_ (by simpa using hI) htargets)
  intro _ ip _ es₂ s h es₃ s' h' _ hI hrun
  rw [← List.append_assoc]
  exact htarget _ _ _ _ _ _ _ _ hI (exec_expireTarget hrun)

omit [Platform] in
/-- A sweep only deletes system routes. -/
theorem calls_of_sweep {now : ℤ} {keys : List Bytes} {s s' : Sweep}
    (hrun : Exec A (Prog.loop (expireGroup now) keys s) h es s' h') :
    ∀ e ∈ es, ∃ ip gateway reply, e = ⟨.deleteSystemRoute ip gateway, reply⟩ := by
  refine sweep_inv (I := fun es _ _ => ∀ e ∈ es, ∃ ip gateway reply,
    e = ⟨.deleteSystemRoute ip gateway, reply⟩)
    ?_ (fun _ _ _ _ hI => hI) (by simp) hrun
  intro key ip es s h es' s' h' hI ho e he
  rcases List.mem_append.mp he with he | he
  · exact hI e he
  · cases ho with
    | kept _ | dropped _ _ _ _ => cases he
    | deleted _ _ _ _ | refused _ _ _ _ => exact ⟨_, _, _, List.mem_singleton.mp he⟩

omit [Platform] in
/-- A sweep leaves no empty group behind. -/
theorem noEmpty_sweep {now : ℤ} {keys : List Bytes} {s s' : Sweep} (h₀ : s.installed.NoEmpty)
    (hrun : Exec A (Prog.loop (expireGroup now) keys s) h es s' h') : s'.installed.NoEmpty := by
  refine exec_loop_inv (fun _ _ s _ => s.installed.NoEmpty) ?_ h₀ hrun
  intro _ key _ es s h es' s' h' _ hI hgroup
  obtain ⟨swept, h₁, es₁, es₂, rfl, htargets, hret⟩ := exec_do_iff.mp hgroup
  obtain ⟨rfl, rfl, rfl⟩ := exec_pure_iff.mp hret
  refine Routes.NoEmptyBut.dropIfEmpty
    (exec_loop_inv (fun _ _ s _ => s.installed.NoEmptyBut key) ?_ (hI.but key) htargets)
  intro _ ip _ _ s h _ s' h' _ hI hrun
  cases exec_expireTarget hrun with
  | kept _ => exact hI
  | dropped _ _ _ _ => exact (hI.set ip _).eraseTarget ip
  | deleted _ _ _ _ => exact (hI.set ip _).eraseTarget ip
  | refused _ _ _ _ => exact hI.set ip _

/-! ### The global route -/

/-- **What `set_global_route` can do**: refuse, or save the new settings and
keep them if that succeeds. -/
theorem exec_setGlobalRoute {memory : Memory} {gateway : Option Bytes}
    {force : Bool} {r : Memory × Except Bytes Unit}
    (hrun : Exec A (setGlobalRoute memory gateway force) h es r h') :
    (es = [] ∧ h' = h ∧ ∃ e, r = (memory, .error e)) ∨
    ∃ fault, es = [⟨.replaceGlobal
      (encodeGlobal (gateway.getD []) (storedForce (gateway.getD []) force)), fault⟩] ∧
      A h (.replaceGlobal (encodeGlobal (gateway.getD []) (storedForce (gateway.getD []) force)))
        fault h' ∧
      ((fault = none ∧
          r = (⟨memory.installedRoutes, gateway.getD [],
            storedForce (gateway.getD []) force⟩, .ok ())) ∨
        (fault ≠ none ∧ ∃ e, r = (memory, .error e))) := by
  unfold setGlobalRoute at hrun
  split_ifs at hrun
  · obtain ⟨rfl, rfl, rfl⟩ := exec_pure_iff.mp hrun
    exact Or.inl ⟨rfl, rfl, _, rfl⟩
  · obtain ⟨result, h₁, es₁, es₂, rfl, hsave, hrun⟩ := exec_do_iff.mp hrun
    obtain ⟨fault, h₂, es', rfl, hA, hret⟩ := exec_lift_do_iff.mp hsave
    obtain ⟨rfl, rfl, rfl⟩ := exec_pure_iff.mp hret
    right
    cases hr : replaceResult "open temporary global route settings"
        "write temporary global route settings failed"
        "replace global route settings" fault with
    | ok u =>
      obtain rfl := replaceResult_eq_ok.mp hr
      obtain ⟨rfl, rfl, rfl⟩ := exec_pure_iff.mp hrun
      exact ⟨none, rfl, hA, Or.inl ⟨rfl, rfl⟩⟩
    | error e =>
      rw [hr] at hrun
      obtain ⟨rfl, rfl, rfl⟩ := exec_pure_iff.mp hrun
      refine ⟨fault, rfl, hA, Or.inr ⟨?_, e, rfl⟩⟩
      rintro rfl
      cases hr

end IpRouter.RouteManager
