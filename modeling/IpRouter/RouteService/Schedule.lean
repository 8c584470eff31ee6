import IpRouter.RouteManager.Reachable
import IpRouter.RouteService.Handlers
import IpRouter.Theory.Interp

/-!
# A request among others

A request runs while other clients and the worker go on. Each call of the route
manager holds `routes_mutex`, so it is one step; between two calls of the request
any number of other operations may be done. A schedule is a run of `Happens`,
whose labels say who did what. That the steps of the request are those of its
handler is said apart: the calls in the schedule are calls the handler makes
(`Makes`), with the answers it got.

A request that is served alone is a program on the host (`serve`): its calls are
the operations of the route manager. It is one of the schedules
(`schedule_of_serve`).
-/

namespace IpRouter.RouteService

open Theory RouteManager

/-- What happens to the running process. -/
inductive Label where
  /-- The request makes a call. -/
  | own (e : ManagerEvent)
  /-- Another client or the worker does an operation. -/
  | other (l : Done)

/-- The call of the request, if it makes one. -/
def Label.call : Label → Option ManagerEvent
  | .own e => some e
  | .other _ => none

/-- The calls of the request in a schedule. -/
def calls (ls : List Label) : List ManagerEvent := ls.filterMap Label.call

variable [Platform]

/-- The others pass valid arguments. -/
def Label.Valid : Label → Prop
  | .own _ => True
  | .other l => l.op.Valid

/-- **The steps of the process while it serves a request among others**, on any host. -/
inductive Happens (s : Service) : Label → Service → Prop
  /-- Somebody else does an operation. -/
  | other {l : Done} {s' : Service} : OpStep Env.any s l s' → Happens s (.other l) s'
  /-- The request reads the global route. -/
  | getGlobalRoute :
      Happens s (.own ⟨.getGlobalRoute, (s.memory.globalGateway, s.memory.forceGlobalGateway)⟩) s
  /-- The request reads the index. -/
  | list : Happens s (.own ⟨.list, RouteManager.list s.routes⟩) s
  /-- The request adds. -/
  | add {destination gateway key : Bytes} {ttl : ℤ} {es : List HostEvent} {r : Except Bytes Unit}
      {s' : Service} :
      OpStep Env.any s ⟨.add destination gateway key ttl, es, r⟩ s' →
      Happens s (.own ⟨.add destination gateway key ttl, r⟩) s'
  /-- The request removes. -/
  | remove {key destination gateway : Bytes} {es : List HostEvent} {r : Except Bytes Unit}
      {s' : Service} :
      OpStep Env.any s ⟨.remove key destination gateway, es, r⟩ s' →
      Happens s (.own ⟨.remove key destination gateway, r⟩) s'

/-- A schedule. -/
abbrev Schedule (s : Service) (ls : List Label) (s' : Service) : Prop :=
  Run (fun s l s' => l.Valid ∧ Happens s l s') s ls s'

variable {s s' : Service} {ls : List Label}

/-- The first call of the request comes after steps of others only. -/
theorem schedule_split {e : ManagerEvent} {es : List ManagerEvent} (hrun : Schedule s ls s')
    (hcalls : calls ls = e :: es) :
    ∃ ls₁ ls₂ s₁ s₂, ls = ls₁ ++ .own e :: ls₂ ∧ calls ls₁ = [] ∧ calls ls₂ = es ∧
      Schedule s ls₁ s₁ ∧
      Happens s₁ (.own e) s₂ ∧ Schedule s₂ ls₂ s' := by
  obtain ⟨ls₁, l, ls₂, rfl, hnone, hl, hrest⟩ := List.filterMap_eq_cons_iff.mp hcalls
  obtain ⟨s₁, h₁, h₂⟩ := run_append_iff.mp hrun
  cases l with
  | other l => cases hl
  | own e' =>
    obtain rfl := Option.some.inj hl
    cases h₂ with
    | cons hstep h₂ =>
      exact ⟨ls₁, ls₂, s₁, _, rfl, List.filterMap_eq_nil_iff.mpr hnone, hrest, h₁, hstep.2, h₂⟩

/-- Before a schedule is at a call, and after it. -/
theorem schedule_at {e : ManagerEvent} (hrun : Schedule s ls s') (he : e ∈ calls ls) :
    ∃ ls₁ ls₂ s₁ s₂, ls = ls₁ ++ .own e :: ls₂ ∧ Schedule s ls₁ s₁ ∧ Happens s₁ (.own e) s₂ ∧
      Schedule s₂ ls₂ s' := by
  obtain ⟨l, hl, hcall⟩ := List.mem_filterMap.mp he
  cases l with
  | other l => cases hcall
  | own e' =>
    obtain rfl := Option.some.inj hcall
    obtain ⟨ls₁, ls₂, rfl⟩ := List.append_of_mem hl
    obtain ⟨s₁, h₁, h₂⟩ := run_append_iff.mp hrun
    cases h₂ with
    | cons hstep h₂ => exact ⟨ls₁, ls₂, s₁, _, rfl, h₁, hstep.2, h₂⟩

/-- What others do brings no target with a newline. -/
theorem oneLine_of_others (hquad : Canonical) (hs : s.routes.OneLine) (hrun : Schedule s ls s')
    (hcalls : calls ls = []) : s'.routes.OneLine := by
  induction hrun with
  | nil => exact hs
  | cons hstep _ ih =>
    obtain ⟨hvalid, hstep⟩ := hstep
    cases hstep with
    | other hstep => exact ih (oneLine_of_opStep hquad hs hvalid hstep) hcalls
    | getGlobalRoute | list | add _ | remove _ => cases hcalls

/-- A removal that succeeded leaves no reference to the route. -/
theorem unreferenced_of_remove {key ip gateway : Bytes} {u : Unit}
    (hstep : Happens s (.own ⟨.remove key ip gateway, .ok u⟩) s') (key' : Bytes) :
    s'.routes.refs key' ip ≠ some gateway := by
  cases hstep with
  | remove hstep =>
    rcases exec_remove (opStep_remove.mp hstep).1 with ⟨-, -, e, hr⟩ | ⟨-, ho⟩
    · cases (Prod.mk.inj hr).2
    · generalize hr : (s'.routes, (.ok u : Except Bytes Unit)) = result at ho
      cases ho with
      | refused _ | restored _ _ _ => cases (Prod.mk.inj hr).2
      | removed _ _ =>
        rw [(Prod.mk.inj hr).1]
        intro hused
        obtain ⟨metadata, hl, hgw⟩ := Routes.refs_eq_some.mp hused
        rw [Routes.lookup_forget] at hl
        split_ifs at hl with hsame
        exact hsame ⟨rfl, Routes.refs_eq_some.mpr ⟨metadata, hl, hgw⟩⟩

/-- A removal erases references to its route only. -/
theorem erased_of_remove {key ip gateway : Bytes} {r : Except Bytes Unit}
    (hstep : Happens s (.own ⟨.remove key ip gateway, r⟩) s') {key' ip' : Bytes}
    {metadata : RouteMetadata} (hbefore : s.routes.lookup key' ip' = some metadata)
    (hafter : s'.routes.lookup key' ip' = none) :
    ip' = ip ∧ metadata.gateway = gateway := by
  have hkeeps : s'.routes = s.routes ∨ s'.routes = s.routes.forget ip gateway := by
    cases hstep with
    | remove hstep =>
      rcases exec_remove (opStep_remove.mp hstep).1 with ⟨-, -, e, hr⟩ | ⟨-, ho⟩
      · exact Or.inl (Prod.mk.inj hr).1
      · exact ho.keeps (P := fun m => m = s.routes ∨ m = s.routes.forget ip gateway)
          (Or.inl rfl) (Or.inr rfl)
  rcases hkeeps with hkept | hforgot
  · rw [hkept, hbefore] at hafter
    cases hafter
  · rw [hforgot, Routes.lookup_forget] at hafter
    split_ifs at hafter with hsame
    · obtain ⟨rfl, hgw⟩ := hsame
      obtain ⟨metadata', hl, rfl⟩ := Routes.refs_eq_some.mp hgw
      exact ⟨rfl, by rw [Option.some.inj (hbefore.symm.trans hl)]⟩
    · rw [hbefore] at hafter
      cases hafter

/-! ### A request alone -/

/-- What a call of the route manager does: a program on the memory and the host. -/
def ManagerCall.prog (m : Memory) : (c : ManagerCall) → HostProg (Memory × c.Reply)
  | .getGlobalRoute => return (m, (m.globalGateway, m.forceGlobalGateway))
  | .list => return (m, RouteManager.list m.installedRoutes)
  | .add destination gateway key ttl => (Op.add destination gateway key ttl).prog m
  | .remove key destination gateway => (Op.remove key destination gateway).prog m

/-- Serve a request while nothing else happens. -/
def serve {α : Type} (p : Handler α) (m : Memory) : HostProg (Memory × α) :=
  p.interp ManagerCall.prog m

theorem serve_bind {α β : Type} (p : Handler α) (q : α → Handler β) (m : Memory) :
    serve (p >>= q) m = serve p m >>= fun r => serve (q r.2) r.1 := Prog.interp_bind p q m

/-- What a call does is a step of the process. -/
theorem happens_of_prog {m m' : Memory} {h h' : Host} {e : ManagerEvent} {es : List HostEvent}
    (hrun : Exec Host.Answers (ManagerCall.prog m e.1) h es (m', e.2) h') :
    Happens ⟨h, m⟩ (.own e) ⟨h', m'⟩ := by
  obtain ⟨c, r⟩ := e
  cases c with
  | getGlobalRoute =>
    obtain ⟨-, heq, rfl⟩ := exec_pure_iff.mp hrun
    obtain ⟨rfl, rfl⟩ := Prod.mk.inj heq
    exact .getGlobalRoute
  | list =>
    obtain ⟨-, heq, rfl⟩ := exec_pure_iff.mp hrun
    obtain ⟨rfl, rfl⟩ := Prod.mk.inj heq
    exact .list
  | add destination gateway key ttl => exact .add hrun
  | remove key destination gateway => exact .remove hrun

/-- **A request that is served alone** goes through a schedule without others. -/
theorem schedule_of_serve {α : Type} {p : Handler α} {es : List HostEvent} {a : α}
    (hrun : Exec Host.Answers (serve p s.memory) s.host es (s'.memory, a) s'.host) :
    ∃ cs, Schedule s (cs.map Label.own) s' ∧ Makes p cs a := by
  obtain ⟨cs, hmakes, hsteps⟩ := run_of_interp hrun
  refine ⟨cs, ?_, hmakes⟩
  have hall : ∀ {x y : Memory × Host} {cs : List ManagerEvent},
      Run (fun (x : Memory × Host) (c : ManagerEvent) y =>
        ∃ es, Exec Host.Answers (ManagerCall.prog x.1 c.1) x.2 es
        (y.1, c.2) y.2) x cs y → Schedule ⟨x.2, x.1⟩ (cs.map Label.own) ⟨y.2, y.1⟩ := by
    intro x y cs hsteps
    induction hsteps with
    | nil => exact .nil
    | cons hstep _ ih =>
      obtain ⟨es, hcall⟩ := hstep
      exact .cons ⟨trivial, happens_of_prog hcall⟩ ih
  exact hall hsteps

end IpRouter.RouteService
