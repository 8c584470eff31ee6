import IpRouter.RouteManager.Service
import IpRouter.Theory.SharedRefs

/-!
# Memory and the system route table

Every key that holds a target is a reference to one shared system route, so the
index and the system route table are a set of references and its table
(`Theory.Coherent`). What an operation does to the two, whichever calls fail, is
a sequence of the moves that keep them coherent: `moves_of_add`,
`moves_of_delete`, `moves_of_target`.

The one exception is a removal whose save fails and whose compensating
`add_system_route` fails too (`readdFails`): it keeps a reference to a route that
is gone. In every run without it (`coherent_of_run`) the index and the system
route table say the same.
-/

namespace IpRouter.RouteManager

open Theory Relation

/-! ### References -/

namespace Routes

variable {m : Routes}

theorem refs_set (m : Routes) (key ip : Bytes) (metadata : RouteMetadata) :
    (m.set key ip metadata).refs = m.refs.set key ip (some metadata.gateway) := by
  funext key' ip'
  simp only [refs, lookup_set, Refs.set]
  split_ifs <;> rfl

theorem refs_erased (m : Routes) (key ip : Bytes) (metadata : RouteMetadata) :
    ((m.set key ip metadata).eraseTarget key ip).refs = m.refs.set key ip none := by
  funext key' ip'
  simp only [refs, lookup_erased, Refs.set]
  split_ifs <;> rfl

theorem refs_dropIfEmpty (m : Routes) (key : Bytes) : (m.dropIfEmpty key).refs = m.refs := by
  funext key' ip'
  simp only [refs, lookup_dropIfEmpty]

/-- When the references to a target agree, forgetting it takes it from all its holders. -/
theorem refs_forget (hagree : m.refs.Agree) {destination gateway key : Bytes}
    (hused : m.refs key destination = some gateway) :
    (m.forget destination gateway).refs = m.refs.release destination := by
  funext key' ip'
  by_cases hip : ip' = destination
  · subst hip
    simp only [refs, lookup_forget, Refs.release, true_and, if_true]
    split_ifs with hsame
    · rfl
    · cases hl : m.lookup key' ip' with
      | none => rfl
      | some metadata =>
        have hr : m.refs key' ip' = some metadata.gateway := by rw [refs, hl, Option.map_some]
        refine absurd ?_ hsame
        rw [hl, Option.map_some, hagree hr hused]
  · simp only [refs, lookup_forget, Refs.release, hip, false_and, if_false]

/-- Setting a reference as it is changes no reference. -/
theorem refs_set_of_lookup {key ip : Bytes} {metadata : RouteMetadata} (metadata' : RouteMetadata)
    (hl : m.lookup key ip = some metadata) (hgw : metadata'.gateway = metadata.gateway) :
    (m.set key ip metadata').refs = m.refs := by
  funext key' ip'
  simp only [refs_set, Refs.set]
  split_ifs with hk
  · rw [hk.1, hk.2, refs, hl, hgw, Option.map_some]
  · rfl

end Routes

/-! ### Operations as moves -/

/-- The references and the system route table. -/
abbrev tables (m : Routes) (h : Host) : Refs Bytes Bytes Bytes × (Bytes → Option Bytes) :=
  (m.refs, h.kernel)

/-- The table is what the index says, and no group is empty. -/
def CoherentState (m : Routes) (h : Host) : Prop := Coherent m.refs h.kernel ∧ m.NoEmpty

variable {ok : (c : HostCall) → c.Reply → Bool} {m : Routes} {h h' : Host}
  {es : List HostEvent} {r : Result}

theorem moves_of_add {destination gateway key : Bytes}
    {metadata : RouteMetadata} (hgw : metadata.gateway = gateway)
    (ho : AddOutcome (restrict Host.Answers ok) m destination gateway key metadata h es r h') :
    ReflTransGen Move (tables m h) (tables r.1 h') := by
  cases ho with
  | conflict _ _ _ => exact .refl
  | unsaved _ save =>
    obtain ⟨rfl, -⟩ := save
    exact .refl
  | @shared key' _ used save =>
    obtain ⟨rfl, -⟩ := save
    simp only [tables, Routes.refs_set, hgw]
    exact .single (.share key key' destination gateway used)
  | installed free save route =>
    obtain ⟨rfl, -⟩ := save
    obtain ⟨rfl, -⟩ := route
    simp only [tables, Routes.refs_set, hgw]
    exact .single (.acquire key destination gateway fun key' => Routes.refs_eq_none.mpr (free key'))
  | @refused _ fault _ _ _ free save route rollback =>
    obtain ⟨rfl, -⟩ := save
    obtain ⟨rfl, -⟩ := route
    obtain ⟨hback, -⟩ := rollback
    cases fault <;> obtain rfl := hback <;> exact .refl

theorem noEmpty_of_add {A : Answers Host HostCall HostCall.Reply}
    {destination gateway key : Bytes} {metadata : RouteMetadata} (hm : m.NoEmpty)
    (ho : AddOutcome A m destination gateway key metadata h es r h') :
    r.1.NoEmpty := by
  cases ho with
  | conflict _ _ _ | unsaved _ _ | refused _ _ _ _ => exact hm
  | shared _ _ | installed _ _ _ => exact hm.set _ _ _

/-- A removal is a release, unless its route cannot be put back. -/
theorem moves_of_delete {destination gateway : Bytes} (hm : Coherent m.refs h.kernel)
    (hreadd : ∀ e, ok (.addSystemRoute destination gateway) (.error e) = false)
    (ho : DeleteOutcome (restrict Host.Answers ok) m destination gateway h es r h') :
    ReflTransGen Move (tables m h) (tables r.1 h') := by
  cases ho with
  | refused route =>
    obtain ⟨rfl, -⟩ := route
    exact .refl
  | removed route save =>
    obtain ⟨⟨hkernel, rfl⟩, -⟩ := route
    obtain ⟨rfl, -⟩ := save
    obtain ⟨key, hused⟩ := (hm destination gateway).mp hkernel
    rw [tables, tables, Routes.refs_forget hm.agree hused]
    exact .single (.release destination)
  | @restored _ _ _ reply _ _ _ route save readd =>
    obtain ⟨⟨hkernel, rfl⟩, -⟩ := route
    obtain ⟨rfl, -⟩ := save
    cases reply with
    | error e =>
      have hnot := readd.2
      simp [hreadd e] at hnot
    | ok u =>
      obtain ⟨rfl, -⟩ := readd
      have hback : Function.update (Function.update h.kernel destination none) destination
          (some gateway) = h.kernel := by
        rw [Function.update_idem, ← hkernel, Function.update_eq_self]
      rw [tables, tables, hback]

theorem noEmpty_of_delete {A : Answers Host HostCall HostCall.Reply} {destination gateway : Bytes}
    (hm : m.NoEmpty) (ho : DeleteOutcome A m destination gateway h es r h') : r.1.NoEmpty := by
  cases ho with
  | refused _ | restored _ _ _ => exact hm
  | removed _ _ => exact Routes.noEmpty_forget _ _ _

theorem moves_of_target {now : ℤ} {key ip : Bytes} {s s' : Sweep}
    (ho : TargetOutcome (restrict Host.Answers ok) now key ip s h es s' h') :
    ReflTransGen Move (tables s.installed h) (tables s'.installed h') := by
  cases ho with
  | kept _ => exact .refl
  | @dropped _ other key' found due ne used =>
    rw [tables, tables, Routes.refs_erased]
    exact .single (.drop key key' ip other.gateway ne (Routes.refs_eq_some.mpr ⟨other, used, rfl⟩))
  | deleted found due alone route =>
    obtain ⟨⟨-, rfl⟩, -⟩ := route
    rw [tables, tables, Routes.refs_erased]
    exact .single (.dropLast key ip fun key' hne => Routes.refs_eq_none.mpr (alone key' hne))
  | @refused metadata _ _ found due alone route =>
    obtain ⟨rfl, -⟩ := route
    have hrefs := Routes.refs_set_of_lookup { metadata with lastAttempt := now } found rfl
    simp only [tables, hrefs]
    exact .refl

/-! ### Runs -/

/-- Whether this is the compensating `add_system_route` of `remove` or `remove_system`, failing. -/
def readdFails : Activity → (c : HostCall) → c.Reply → Bool
  | .op (.remove _ _ _), .addSystemRoute _ _, .error _ => true
  | .op (.removeSystem _ _), .addSystemRoute _ _, .error _ => true
  | _, _, _ => false

variable [Platform]

/-- Every operation keeps the table what the index says. -/
theorem coherent_step {s s' : Service} {l : Done} (hs : CoherentState s.routes s.host)
    (hstep : OpStep (Env.without readdFails) s l s') : CoherentState s'.routes s'.host := by
  obtain ⟨hcoh, hne⟩ := hs
  obtain ⟨o, es, r⟩ := l
  cases o with
  | add destination gateway key ttl =>
    obtain ⟨now, h₁, es', -, ⟨htime, -⟩, ho⟩ := exec_add (opStep_add.mp hstep).1
    have hcoh : Coherent s.routes.refs h₁.kernel := by rw [htime]; exact hcoh
    rcases ho with ⟨-, -, -, hh, hr⟩ | ⟨-, ho⟩
    · obtain ⟨hm, -⟩ := Prod.mk.inj hr
      rw [hm, hh]
      exact ⟨hcoh, hne⟩
    · have hmoves := moves_of_add (newTarget_gateway _ _ _) ho
      exact ⟨coherent_of_moves hmoves hcoh, noEmpty_of_add hne ho⟩
  | remove key destination gateway =>
    rcases exec_remove (opStep_remove.mp hstep).1 with ⟨-, hh, e, hr⟩ | ⟨-, ho⟩
    · obtain ⟨hm, -⟩ := Prod.mk.inj hr
      rw [hm, hh]
      exact ⟨hcoh, hne⟩
    · have hmoves := moves_of_delete hcoh (fun _ => rfl) ho
      exact ⟨coherent_of_moves hmoves hcoh, noEmpty_of_delete hne ho⟩
  | removeSystem destination gateway =>
    obtain ⟨listing, h₁, es', -, ⟨rfl, -⟩, ho⟩ := exec_removeSystem (opStep_removeSystem.mp hstep).1
    rcases ho with ⟨-, hh, e, hr⟩ | ho
    · obtain ⟨hm, -⟩ := Prod.mk.inj hr
      rw [hm, hh]
      exact ⟨hcoh, hne⟩
    · have hmoves := moves_of_delete hcoh (fun _ => rfl) ho
      exact ⟨coherent_of_moves hmoves hcoh, noEmpty_of_delete hne ho⟩
  | expire =>
    obtain ⟨now, h₁, swept, es₁, es₂, h₂, -, ⟨htime, -⟩, hloop, hm, hsave⟩ :=
      exec_expireRoutes (opStep_expire hstep).1
    have hcoh₁ : Coherent s.routes.refs h₁.kernel := by rw [htime]; exact hcoh
    have hcoh₂ : Coherent swept.installed.refs h₂.kernel := by
      refine sweep_inv (I := fun _ s h => Coherent s.installed.refs h.kernel) ?_ ?_ hcoh₁ hloop
      · intro key ip _ s h _ s' h' hI ho
        exact coherent_of_moves (moves_of_target ho) hI
      · intro key _ s h hI
        simpa only [Routes.refs_dropIfEmpty] using hI
    rw [hm]
    refine ⟨?_, noEmpty_sweep hne hloop⟩
    rcases hsave with ⟨-, -, rfl⟩ | ⟨-, fault, -, hA, -⟩
    · exact hcoh₂
    · cases fault <;> rw [hA] <;> exact hcoh₂
  | setGlobalRoute gateway force =>
    rcases exec_setGlobalRoute (opStep_setGlobalRoute.mp hstep) with ⟨-, hh, e, hr⟩ |
      ⟨fault, -, ⟨hA, -⟩, hr⟩
    · rw [Service.routes, (Prod.mk.inj hr).1, hh]
      exact ⟨hcoh, hne⟩
    · have hkernel : s'.host.kernel = s.host.kernel := by cases fault <;> rw [hA]
      have hroutes : s'.routes = s.routes := by
        rcases hr with ⟨-, hr⟩ | ⟨-, e, hr⟩ <;> rw [Service.routes, (Prod.mk.inj hr).1]
      rw [CoherentState, hroutes, hkernel]
      exact ⟨hcoh, hne⟩

/-- The service as it is with no route anywhere. -/
structure Service.Fresh (s : Service) : Prop where
  /-- No key holds anything. -/
  routes : s.routes = OrdMap.empty
  /-- The system route table is empty. -/
  kernel : ∀ ip, s.host.kernel ip = none

omit [Platform] in
theorem Service.Fresh.coherent {s : Service} (h : s.Fresh) : CoherentState s.routes s.host := by
  rw [CoherentState, h.routes]
  refine ⟨fun ip gateway => ?_, Routes.NoEmpty.empty⟩
  simp [h.kernel, Routes.refs]

/-- **In every state reached from an empty one**, whichever saves and kernel calls failed, as long
as no compensating re-add did: keys that hold one target agree on its gateway, no group is empty,
and the system route table holds exactly the routes the index refers to. -/
theorem coherent_of_run {s s' : Service} {ls : List Done} (h₀ : s.Fresh)
    (hrun : Run (OpStep (Env.without readdFails)) s ls s') :
    s'.routes.refs.Agree ∧ s'.routes.NoEmpty ∧ Coherent s'.routes.refs s'.host.kernel := by
  have hs : CoherentState s'.routes s'.host :=
    hrun.inv (I := fun s => CoherentState s.routes s.host) (fun _ _ _ => coherent_step) h₀.coherent
  exact ⟨hs.1.agree, hs.2, hs.1⟩

omit [Platform] in
/-- Two keys take the same target, and the first gives it up again while the file cannot be
written. -/
theorem coherent_of_run_shared : ∃ s' : Service,
    s'.routes.refs (text "a") (text "10.0.0.1") = some (text "10.0.0.254") ∧
      s'.routes.refs (text "b") (text "10.0.0.1") = some (text "10.0.0.254") ∧
      s'.routes.refs.Agree ∧ s'.routes.NoEmpty ∧ Coherent s'.routes.refs s'.host.kernel := by
  let _ := quadPlatform
  let s₀ : Service := ⟨⟨none, none, fun _ => none, 0⟩, ⟨OrdMap.empty, [], false⟩⟩
  let s₁ := (s₀.play (.add (text "10.0.0.1") (text "10.0.0.254") (text "a") 60) []).2
  let s₂ := (s₁.play (.add (text "10.0.0.1") (text "10.0.0.254") (text "b") 0) []).2
  let s₃ :=
    (s₂.play (.remove (text "a") (text "10.0.0.1") (text "10.0.0.254")) [{}, { ok := false }]).2
  have hfresh : s₀.Fresh := ⟨rfl, fun _ => rfl⟩
  have hrun : Run (OpStep (Env.without readdFails)) s₀ _ s₃ :=
    .cons ((s₀.opStep_play _ _).without (by decide))
      (.cons ((s₁.opStep_play _ _).without (by decide))
      (.cons ((s₂.opStep_play _ _).without (by decide)) .nil))
  exact ⟨s₃, by decide, by decide, coherent_of_run hfresh hrun⟩

end IpRouter.RouteManager
