import IpRouter.RouteManager.Coherence

/-!
# How long a reference is held

A client that was told its route was added wants to know how long it may count on
it. A reference is held up to a time when it is permanent or does not expire
before (`Routes.HeldUntil`). `Done.Spares` says of an operation that it is no removal
of the target, no pass of the worker at or after that time, and no addition that
gives the same reference an earlier end; such an operation keeps the reference,
whatever it does otherwise and whatever fails (`heldUntil_of_opStep`).
-/

namespace IpRouter.RouteManager

open Theory

variable [Platform] {s s' : Service} {l : Done} {key ip gateway : Bytes} {limit now ttl : ℤ}

omit [Platform] in
/-- `key` refers to `ip` through `gateway`, and this does not expire before `limit`. -/
def Routes.HeldUntil (m : Routes) (key ip gateway : Bytes) (limit : ℤ) : Prop :=
  ∃ metadata, m.lookup key ip = some metadata ∧ metadata.gateway = gateway ∧
    (metadata.expiresAt ≤ 0 ∨ limit ≤ metadata.expiresAt)

omit [Platform] in
/-- The operation does not take the reference of `key` to `ip` away, nor let it end before
`limit`. -/
def Done.Spares (l : Done) (key ip : Bytes) (limit : ℤ) : Prop :=
  match l.op with
  | .add destination _ key' ttl =>
    key' = key ∧ destination = ip → 0 < ttl → ∀ now, ⟨.time, now⟩ ∈ l.calls → limit ≤ now + ttl
  | .remove _ destination _ | .removeSystem destination _ => destination ≠ ip
  | .expire => ∀ now, ⟨.time, now⟩ ∈ l.calls → now < limit
  | .setGlobalRoute _ _ => True

omit [Platform] in
theorem Routes.HeldUntil.refs {m : Routes} (h : m.HeldUntil key ip gateway limit) :
    m.refs key ip = some gateway := by
  obtain ⟨metadata, hl, hgateway, -⟩ := h
  exact Routes.refs_eq_some.mpr ⟨metadata, hl, hgateway⟩

omit [Platform] in
/-- A new target is held for its time to live. -/
theorem Routes.heldUntil_set (m : Routes) (key ip gateway : Bytes)
    (h : 0 < ttl → limit ≤ now + ttl) :
    (m.set key ip (newTarget gateway now ttl)).HeldUntil key ip gateway limit := by
  refine ⟨newTarget gateway now ttl, by rw [Routes.lookup_set, if_pos ⟨rfl, rfl⟩], rfl, ?_⟩
  simp only [newTarget, expiration]
  split_ifs with httl
  · exact Or.inr (h httl)
  · exact Or.inl le_rfl

omit [Platform] in
/-- A pass of the worker before `limit` keeps the reference. -/
theorem heldUntil_of_sweep {A : Answers Host HostCall HostCall.Reply} {keys : List Bytes}
    {m : Routes} {changed : Bool} {h h' : Host} {es : List HostEvent} {swept : Sweep}
    (hrun : Exec A (Prog.loop (expireGroup now) keys ⟨m, changed⟩) h es swept h')
    (hm : m.HeldUntil key ip gateway limit) (hnow : now < limit) :
    swept.installed.HeldUntil key ip gateway limit := by
  refine sweep_inv (I := fun _ s _ => s.installed.HeldUntil key ip gateway limit) ?_ ?_ hm hrun
  · rintro key' ip' _ s h _ s' h' ⟨metadata, hl, hgateway, hlimit⟩ ho
    by_cases hat : key = key' ∧ ip = ip'
    · obtain ⟨rfl, rfl⟩ := hat
      -- the worker keeps what is permanent or has not expired
      have hkeep : metadata.keep now = true := by
        simp only [RouteMetadata.keep, decide_eq_true_eq]
        omega
      cases ho with
      | kept _ => exact ⟨metadata, hl, hgateway, hlimit⟩
      | dropped found due _ _ | deleted found due _ _ | refused found due _ _ =>
        obtain rfl := Option.some.inj (hl.symm.trans found)
        rw [hkeep] at due
        cases due
    · exact ⟨metadata, (ho.frame hat).trans hl, hgateway, hlimit⟩
  · rintro key' _ s _ ⟨metadata, hl, hrest⟩
    exact ⟨metadata, by rwa [Routes.lookup_dropIfEmpty], hrest⟩

/-- **An operation that spares a reference keeps it**, where the references to a target agree. -/
theorem heldUntil_of_opStep (hagree : s.routes.refs.Agree)
    (h : s.routes.HeldUntil key ip gateway limit) (hspares : l.Spares key ip limit)
    (hstep : OpStep Env.any s l s') : s'.routes.HeldUntil key ip gateway limit := by
  obtain ⟨metadata, hl, hgateway, hlimit⟩ := h
  refine (hstep.keeps (P := fun m => m.HeldUntil key ip gateway limit)
    ⟨metadata, hl, hgateway, hlimit⟩ ?_ ?_ ?_).1
  · intro destination gateway' key' ttl now hop htime _ hused
    by_cases hat : key = key' ∧ ip = destination
    · obtain ⟨rfl, rfl⟩ := hat
      -- the reference there is agrees with the one set
      have hsame : gateway' = gateway := by
        rcases hused with ⟨key', hused⟩ | hfree
        · exact hagree hused (Routes.refs_eq_some.mpr ⟨metadata, hl, hgateway⟩)
        · rw [hfree key] at hl
          cases hl
      subst hsame
      refine Routes.heldUntil_set _ _ _ _ fun httl => ?_
      rw [Done.Spares, hop] at hspares
      exact hspares ⟨rfl, rfl⟩ httl now htime
    · exact ⟨metadata, by rw [Routes.lookup_set, if_neg hat, hl], hgateway, hlimit⟩
  · intro destination gateway' hop
    have hne : destination ≠ ip := by
      rcases hop with ⟨key', hop⟩ | hop <;> simpa only [Done.Spares, hop] using hspares
    exact ⟨metadata, by rw [Routes.lookup_forget, if_neg fun h => hne h.1.symm, hl],
      hgateway, hlimit⟩
  · intro hop now h es swept h' htime _ hrun
    simp only [Done.Spares, hop] at hspares
    exact heldUntil_of_sweep hrun ⟨metadata, hl, hgateway, hlimit⟩ (hspares now htime)

/-- An addition that is reported done holds its reference. -/
theorem heldUntil_of_add {destination : Bytes} {es : List HostEvent} {u : Unit}
    (hstep : OpStep Env.any s ⟨.add destination gateway key ttl, es, .ok u⟩ s')
    (hlimit : 0 < ttl → ∀ now, ⟨.time, now⟩ ∈ es → limit ≤ now + ttl) :
    s'.routes.HeldUntil key destination gateway limit := by
  obtain ⟨now, h₁, es', rfl, -, ⟨-, -, -, -, hr⟩ | ⟨-, ho⟩⟩ := exec_add (opStep_add.mp hstep).1
  · cases (Prod.mk.inj hr).2
  · have hset : s'.routes = s.routes.set key destination (newTarget gateway now ttl) := by
      generalize hr : (s'.routes, (.ok u : Except Bytes Unit)) = result at ho
      cases ho with
      | conflict _ _ _ | unsaved _ _ | refused _ _ _ _ => cases (Prod.mk.inj hr).2
      | shared _ _ | installed _ _ _ => exact (Prod.mk.inj hr).1
    rw [hset]
    exact Routes.heldUntil_set _ _ _ _ fun httl => hlimit httl now List.mem_cons_self

end IpRouter.RouteManager
