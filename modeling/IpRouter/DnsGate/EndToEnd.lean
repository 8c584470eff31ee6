import IpRouter.DnsGate.DnsProxy
import IpRouter.RouteManager.Holding
import IpRouter.RouteService.Schedule

/-!
# From a DNS answer to the route

dns-gate and ip-router together. A fiber of the proxy that has addresses to route
opens a connection; ip-router serves it in a fiber of its own, which calls the
route manager, while other clients and the worker use the route manager too; the
response goes back to the fiber of the proxy, which may also have given up
waiting. The steps of all these interleave as they like (`SystemStep`).

`handle_request` has the routes added before it sends the answer to the client, so
that the client does not use an address whose route is missing. `routed_of_answer`
is what this comes to: when the answer is sent and the request to ip-router was
answered with 200, every address to be routed has been added since, and is in the
index and in the system route table unless something took it away again. The
compensating `add_system_route` of a removal must not fail, as for the index in
general (`readdFails`).
-/

namespace IpRouter.DnsGate

open Theory RouteManager RouteService

variable [Platform] [Acl] [Rfc1035]

/-! ### The system -/

omit [Acl] [Rfc1035] in
/-- What a call of a connection does to the process of ip-router. -/
inductive Serves (E : Env) (s : Service) : ManagerEvent → Option Done → Service → Prop
  /-- It reads the global route. -/
  | getGlobalRoute :
      Serves E s ⟨.getGlobalRoute, (s.memory.globalGateway, s.memory.forceGlobalGateway)⟩ none s
  /-- It reads the index. -/
  | list : Serves E s ⟨.list, RouteManager.list s.routes⟩ none s
  /-- It adds. -/
  | add {destination gateway key : Bytes} {ttl : ℤ} {es : List HostEvent} {r : Except Bytes Unit}
      {s' : Service} :
      OpStep E s ⟨.add destination gateway key ttl, es, r⟩ s' →
      Serves E s ⟨.add destination gateway key ttl, r⟩
        (some ⟨.add destination gateway key ttl, es, r⟩) s'
  /-- It removes. -/
  | remove {key destination gateway : Bytes} {es : List HostEvent} {r : Except Bytes Unit}
      {s' : Service} :
      OpStep E s ⟨.remove key destination gateway, es, r⟩ s' →
      Serves E s ⟨.remove key destination gateway, r⟩
        (some ⟨.remove key destination gateway, es, r⟩) s'

/-- The connections of ip-router. -/
abbrev Connections := Pool HttpRequest ManagerCall ManagerCall.Reply HttpResponse

/-- dns-gate and ip-router. -/
structure System where
  /-- The proxy. -/
  gate : Proxy
  /-- The connection each fiber of the proxy waits for. -/
  waiting : ℕ → Option ℕ
  /-- The connections that ip-router serves for it. -/
  router : Connections
  /-- The process of ip-router. -/
  service : Service

/-- What happens in the system. -/
inductive SystemLabel where
  /-- A step of the proxy. -/
  | gate (l : ProxyLabel)
  /-- A fiber of the proxy opens a connection with a request. -/
  | connect (i : ℕ) (request : HttpRequest)
  /-- A connection makes a call, which may be an operation on the routes. -/
  | serve (j : ℕ) (e : ManagerEvent) (done : Option Done)
  /-- Another client of ip-router or the worker does an operation. -/
  | other (done : Done)

section Step

variable (upstreamAddr : Bytes) (r : GeoipRouter) (lookupCountry : Bytes → Option Bytes)

/-- **The steps of dns-gate and ip-router.** -/
inductive SystemStep (s : System) : SystemLabel → System → Prop
  /-- The proxy does something that does not concern ip-router. -/
  | gate {l : ProxyLabel} {gate' : Proxy} (hl : ∀ i c reply, l ≠ .call i ⟨.router c, reply⟩)
      (h : ProxyStep upstreamAddr r lookupCountry s.gate l gate') :
      SystemStep s (.gate l) { s with gate := gate' }
  /-- A fiber that is about to send a request to ip-router opens a connection, which is accepted. -/
  | connect {i : ℕ} {f : Fiber RequestMessage ProxyCall ProxyCall.Reply Unit}
      {address url : Bytes} {timeout : ℤ}
      {k : RouterReply → ProxyProg Unit} {router' : Connections} (h : s.gate.fibers[i]? = some f)
      (hf : f.rest = .call (.router (.post address timeout url)) k) (hfree : s.waiting i = none)
      (haccept : Run (Pool.Step routeAdd) s.router [.push ⟨Acl.urlParameter url⟩, .pop] router') :
      SystemStep s (.connect i ⟨Acl.urlParameter url⟩)
        { s with
          waiting := Function.update s.waiting i (some s.router.fibers.length), router := router' }
  /-- A connection makes its next call. -/
  | serve {j : ℕ} {e : ManagerEvent} {done : Option Done} {router' : Connections}
      {service' : Service}
      (h : s.router.Step routeAdd (.call j e) router')
      (hserves : Serves (Env.without readdFails) s.service e done service') :
      SystemStep s (.serve j e done) { s with router := router', service := service' }
  /-- Another client or the worker does an operation. -/
  | other {done : Done} {service' : Service}
      (h : OpStep (Env.without readdFails) s.service done service') :
      SystemStep s (.other done) { s with service := service' }
  /-- A fiber gets the response of its connection. -/
  | answered {i j : ℕ} {c : RouterCall}
      {g : Fiber HttpRequest ManagerCall ManagerCall.Reply HttpResponse}
      {response : HttpResponse} {body : Bytes} {gate' : Proxy} (hwaits : s.waiting i = some j)
      (hg : s.router.fibers[j]? = some g) (hrest : g.rest = .ret response)
      (h : ProxyStep upstreamAddr r lookupCountry s.gate
        (.call i ⟨.router c, RouterReply.answered response.status body⟩) gate') :
      SystemStep s (.gate (.call i ⟨.router c, RouterReply.answered response.status body⟩))
        { s with gate := gate', waiting := Function.update s.waiting i none }
  /-- A fiber gives up: there is no connection, or no response that can be read. -/
  | failed {i : ℕ} {c : RouterCall} {reply : RouterReply} {gate' : Proxy}
      (hreply : ∀ status body, reply ≠ .answered status body)
      (h : ProxyStep upstreamAddr r lookupCountry s.gate (.call i ⟨.router c, reply⟩) gate') :
      SystemStep s (.gate (.call i ⟨.router c, reply⟩))
        { s with gate := gate', waiting := Function.update s.waiting i none }

end Step

/-- No client has asked yet, and the index and the system route table say the same. -/
structure System.Idle (s : System) : Prop where
  /-- Nothing has happened in the proxy. -/
  gate : s.gate = .empty
  /-- No fiber waits. -/
  waiting : ∀ i, s.waiting i = none
  /-- There is no connection. -/
  router : s.router = .empty
  /-- The index and the system route table say the same. -/
  coherent : CoherentState s.service.routes s.service.host

/-! ### What each part sees -/

/-- The step of the proxy, if it is one. -/
def SystemLabel.gateLabel : SystemLabel → Option ProxyLabel
  | .gate l => some l
  | _ => none

/-- The steps of the proxy. -/
def gateLabels (ls : List SystemLabel) : List ProxyLabel := ls.filterMap SystemLabel.gateLabel

/-- The steps of the connections in a step. -/
def SystemLabel.routerLabels : SystemLabel →
    List (PoolLabel HttpRequest ManagerCall ManagerCall.Reply)
  | .connect _ request => [.push request, .pop]
  | .serve j e _ => [.call j e]
  | .gate _ | .other _ => []

/-- The steps of the connections. -/
def routerLabels (ls : List SystemLabel) :
    List (PoolLabel HttpRequest ManagerCall ManagerCall.Reply) :=
  ls.flatMap SystemLabel.routerLabels

/-- The operation on the routes that is done. -/
def SystemLabel.done : SystemLabel → Option Done
  | .serve _ _ done => done
  | .other done => some done
  | .gate _ | .connect _ _ => none

/-- Fiber `i` of the proxy opened a connection before connection `j` did anything. -/
def Connected (ls : List SystemLabel) (i j : ℕ) : Prop :=
  ∃ ls₁ request ls₂, ls = ls₁ ++ .connect i request :: ls₂ ∧ callsOf j (routerLabels ls₁) = []

omit [Platform] [Acl] [Rfc1035] in
theorem gateLabels_concat (ls : List SystemLabel) (l : SystemLabel) :
    gateLabels (ls ++ [l]) = gateLabels ls ++ l.gateLabel.toList := by
  cases hl : l.gateLabel <;> simp [gateLabels, hl]

omit [Platform] [Acl] [Rfc1035] in
theorem routerLabels_concat (ls : List SystemLabel) (l : SystemLabel) :
    routerLabels (ls ++ [l]) = routerLabels ls ++ l.routerLabels := by
  simp [routerLabels]

omit [Platform] [Acl] [Rfc1035] in
theorem Connected.append {ls : List SystemLabel} {i j : ℕ} (h : Connected ls i j)
    (l : SystemLabel) :
    Connected (ls ++ [l]) i j := by
  obtain ⟨ls₁, request, ls₂, rfl, hcalls⟩ := h
  exact ⟨ls₁, request, ls₂ ++ [l], by simp, hcalls⟩

/-- Whether a step of the proxy is a call of ip-router. -/
def asksRouter : ProxyLabel → Bool
  | .call _ ⟨.router _, _⟩ => true
  | _ => false

/-! ### The invariant -/

section Joined

variable {upstreamAddr : Bytes} {r : GeoipRouter} {lookupCountry : Bytes → Option Bytes}
  {s s' : System} {ls : List SystemLabel} {l : SystemLabel}

omit [Acl] [Rfc1035] in
theorem coherent_of_serves {s s' : Service} {e : ManagerEvent} {done : Option Done}
    (hs : CoherentState s.routes s.host) (h : Serves (Env.without readdFails) s e done s') :
    CoherentState s'.routes s'.host := by
  cases h with
  | getGlobalRoute | list => exact hs
  | add hstep | remove hstep => exact coherent_step hs hstep

omit [Platform] [Acl] [Rfc1035] in
/-- A connection that is opened is the next one. -/
theorem accepted {μ ι α : Type} {ρ : ι → Type} {handle : μ → Prog ι ρ α} {p p' : Pool μ ι ρ α}
    {m : μ} (hbox : p.box = []) (h : Run (Pool.Step handle) p [.push m, .pop] p') :
    p' = ⟨[], p.fibers ++ [⟨m, [], handle m⟩]⟩ := by
  rcases h with _ | ⟨⟨⟩, _ | ⟨hpop, ⟨⟩⟩⟩
  cases hpop with
  | pop hbox' =>
    simp only [hbox, List.nil_append, List.cons.injEq] at hbox'
    obtain ⟨rfl, rfl⟩ := hbox'
    rfl

/-- **How the parts go together**, after the steps `ls`. -/
structure Joined (upstreamAddr : Bytes) (r : GeoipRouter) (lookupCountry : Bytes → Option Bytes)
    (ls : List SystemLabel) (s : System) : Prop where
  /-- The steps of the proxy are a run of the proxy. -/
  gate : Run (ProxyStep upstreamAddr r lookupCountry) .empty (gateLabels ls) s.gate
  /-- The steps of the connections are a run of theirs. -/
  router : Run (Pool.Step routeAdd) .empty (routerLabels ls) s.router
  /-- Every connection is served. -/
  box : s.router.box = []
  /-- The index and the system route table say the same. -/
  coherent : CoherentState s.service.routes s.service.host
  /-- A fiber that waits for a connection waits with the request of the connection. -/
  waits : ∀ i j, s.waiting i = some j → ∃ f address timeout url k g, s.gate.fibers[i]? = some f ∧
    f.rest = .call (.router (.post address timeout url)) k ∧ s.router.fibers[j]? = some g ∧
    g.message = ⟨Acl.urlParameter url⟩ ∧ Connected ls i j
  /-- A response is the one of a connection for the same request. -/
  answered : ∀ i address timeout url (status : ℤ) body,
    ⟨.router (.post address timeout url), RouterReply.answered status body⟩ ∈ s.gate.madeBy i →
    ∃ j g response, status = HttpResponse.status response ∧ s.router.fibers[j]? = some g ∧
      g.message = ⟨Acl.urlParameter url⟩ ∧ g.rest = .ret response ∧ Connected ls i j

theorem System.Idle.joined (h : s.Idle) : Joined upstreamAddr r lookupCountry [] s where
  gate := h.gate ▸ .nil
  router := h.router ▸ .nil
  box := by rw [h.router]; rfl
  coherent := h.coherent
  waits i j hw := by
    rw [h.waiting] at hw
    cases hw
  answered i address timeout url status body hmem := by
    rw [h.gate] at hmem
    cases hmem

/-- A step of the proxy that does not concern ip-router. -/
theorem Joined.gate_step (h : Joined upstreamAddr r lookupCountry ls s)
    {l : ProxyLabel} {gate' : Proxy} (hl : ∀ i c reply, l ≠ .call i ⟨.router c, reply⟩)
    (hstep : ProxyStep upstreamAddr r lookupCountry s.gate l gate') :
    Joined upstreamAddr r lookupCountry (ls ++ [.gate l]) { s with gate := gate' } := by
  refine ⟨?_, ?_, h.box, h.coherent, fun i j hw => ?_,
    fun i address timeout url status body hmem => ?_⟩
  · rw [gateLabels_concat]
    exact h.gate.snoc hstep
  · rw [routerLabels_concat]
    simpa [SystemLabel.routerLabels] using h.router
  · obtain ⟨f, address, timeout, url, k, g, hf, hrest, hg, hmessage, hconnected⟩ := h.waits i j hw
    rcases fiber_of_step hstep hf with hf' | ⟨e, f', rfl, hcall, -⟩
    · exact ⟨f, address, timeout, url, k, g, hf', hrest, hg, hmessage, hconnected.append _⟩
    · obtain ⟨reply, rfl, -⟩ := hcall.next hrest
      exact absurd rfl (hl i _ reply)
  · rw [madeBy_of_step hstep, List.mem_append] at hmem
    rcases hmem with hmem | hmem
    · obtain ⟨j, g, response, hstatus, hg, hmessage, hrest, hconnected⟩ :=
        h.answered _ _ _ _ _ _ hmem
      exact ⟨j, g, response, hstatus, hg, hmessage, hrest, hconnected.append _⟩
    · cases l with
      | push m => cases hmem
      | pop => cases hmem
      | call i' e =>
        simp only [PoolLabel.callOf, Option.mem_toList, Option.ite_none_right_eq_some,
          Option.some.injEq] at hmem
        obtain ⟨rfl, rfl⟩ := hmem
        exact absurd rfl (hl _ _ _)

theorem Joined.connect_step (h : Joined upstreamAddr r lookupCountry ls s) {i : ℕ}
    {f : Fiber RequestMessage ProxyCall ProxyCall.Reply Unit} {address url : Bytes} {timeout : ℤ}
    {k : RouterReply → ProxyProg Unit} {router' : Connections} (hf : s.gate.fibers[i]? = some f)
    (hrest : f.rest = .call (.router (.post address timeout url)) k)
    (haccept : Run (Pool.Step routeAdd) s.router [.push ⟨Acl.urlParameter url⟩, .pop] router') :
    Joined upstreamAddr r lookupCountry (ls ++ [.connect i ⟨Acl.urlParameter url⟩])
      { s with
        waiting := Function.update s.waiting i (some s.router.fibers.length),
        router := router' } := by
  obtain rfl := accepted h.box haccept
  refine ⟨?_, ?_, rfl, h.coherent, fun i' j hw => ?_,
    fun i' address timeout url status body hmem => ?_⟩
  · rw [gateLabels_concat]
    simpa [SystemLabel.gateLabel] using h.gate
  · rw [routerLabels_concat]
    exact run_append_iff.mpr ⟨_, h.router, haccept⟩
  · replace hw : Function.update s.waiting i (some s.router.fibers.length) i' = some j := hw
    by_cases hi : i' = i
    · subst hi
      obtain rfl : s.router.fibers.length = j := by simpa using hw
      refine ⟨f, address, timeout, url, k, ⟨⟨Acl.urlParameter url⟩, [],
        routeAdd ⟨Acl.urlParameter url⟩⟩, hf, hrest, by simp, rfl, ls, _, [], rfl, ?_⟩
      -- the new connection has done nothing yet
      have hmade := run_madeBy h.router s.router.fibers.length
      simpa [Pool.madeBy, Pool.empty] using hmade.symm
    · rw [Function.update_of_ne hi] at hw
      obtain ⟨f', address, timeout, url, k, g, hf', hrest', hg, hmessage, hconnected⟩ :=
        h.waits i' j hw
      refine ⟨f', address, timeout, url, k, g, hf', hrest', ?_, hmessage, hconnected.append _⟩
      rw [List.getElem?_append_left (List.getElem?_eq_some_iff.mp hg).1, hg]
  · obtain ⟨j, g, response, hstatus, hg, hmessage, hret, hconnected⟩ := h.answered _ _ _ _ _ _ hmem
    refine ⟨j, g, response, hstatus, ?_, hmessage, hret, hconnected.append _⟩
    rw [List.getElem?_append_left (List.getElem?_eq_some_iff.mp hg).1, hg]

theorem Joined.serve_step (h : Joined upstreamAddr r lookupCountry ls s)
    {j : ℕ} {e : ManagerEvent} {done : Option Done} {router' : Connections}
    {service' : Service} (hstep : s.router.Step routeAdd (.call j e) router')
    (hserves : Serves (Env.without readdFails) s.service e done service') :
    Joined upstreamAddr r lookupCountry (ls ++ [.serve j e done])
      { s with router := router', service := service' } := by
  refine ⟨?_, ?_, ?_, coherent_of_serves h.coherent hserves, fun i j' hw => ?_,
    fun i address timeout url status body hmem => ?_⟩
  · rw [gateLabels_concat]
    simpa [SystemLabel.gateLabel] using h.gate
  · rw [routerLabels_concat]
    exact h.router.snoc hstep
  · cases hstep with
    | call _ _ => exact h.box
  · obtain ⟨f, address, timeout, url, k, g, hf, hrest, hg, hmessage, hconnected⟩ := h.waits i j' hw
    rcases fiber_of_step hstep hg with hg' | ⟨e', g', -, hcall, hg'⟩
    · exact ⟨f, address, timeout, url, k, g, hf, hrest, hg', hmessage, hconnected.append _⟩
    · exact ⟨f, address, timeout, url, k, g', hf, hrest, hg', hcall.message.trans hmessage,
        hconnected.append _⟩
  · obtain ⟨j', g, response, hstatus, hg, hmessage, hret, hconnected⟩ := h.answered _ _ _ _ _ _ hmem
    rcases fiber_of_step hstep hg with hg' | ⟨e', g', -, hcall, -⟩
    · exact ⟨j', g, response, hstatus, hg', hmessage, hret, hconnected.append _⟩
    · exact absurd hret (hcall.not_ret _)

/-- A fiber of the proxy stops waiting, with a response or without one. -/
theorem Joined.reply_step (h : Joined upstreamAddr r lookupCountry ls s) {i : ℕ}
    {c : RouterCall} {reply : RouterReply} {gate' : Proxy}
    (hreply : ∀ (status : ℤ) body, reply = .answered status body → ∃ j g response,
      s.waiting i = some j ∧ s.router.fibers[j]? = some g ∧ g.rest = .ret response ∧
        status = HttpResponse.status response)
    (hstep : ProxyStep upstreamAddr r lookupCountry s.gate (.call i ⟨.router c, reply⟩) gate') :
    Joined upstreamAddr r lookupCountry (ls ++ [.gate (.call i ⟨.router c, reply⟩)])
      { s with gate := gate', waiting := Function.update s.waiting i none } := by
  refine ⟨?_, ?_, h.box, h.coherent, fun i' j hw => ?_,
    fun i' address timeout url status body hmem => ?_⟩
  · rw [gateLabels_concat]
    exact h.gate.snoc hstep
  · rw [routerLabels_concat]
    simpa [SystemLabel.routerLabels] using h.router
  · replace hw : Function.update s.waiting i none i' = some j := hw
    by_cases hi : i' = i
    · subst hi
      simp at hw
    · rw [Function.update_of_ne hi] at hw
      obtain ⟨f, address, timeout, url, k, g, hf, hrest, hg, hmessage, hconnected⟩ :=
        h.waits i' j hw
      rcases fiber_of_step hstep hf with hf' | ⟨e, f', heq, -, -⟩
      · exact ⟨f, address, timeout, url, k, g, hf', hrest, hg, hmessage, hconnected.append _⟩
      · cases heq
        exact absurd rfl hi
  · rw [madeBy_of_step hstep, List.mem_append] at hmem
    rcases hmem with hmem | hmem
    · obtain ⟨j, g, response, hstatus, hg, hmessage, hret, hconnected⟩ :=
        h.answered _ _ _ _ _ _ hmem
      exact ⟨j, g, response, hstatus, hg, hmessage, hret, hconnected.append _⟩
    · simp only [PoolLabel.callOf, Option.mem_toList, Option.ite_none_right_eq_some,
        Option.some.injEq] at hmem
      obtain ⟨rfl, heq⟩ := hmem
      cases heq
      obtain ⟨j, g, response, hw, hg, hret, hstatus⟩ := hreply status body rfl
      obtain ⟨f, address', timeout', url', k, g', hf, hrest, hg', hmessage, hconnected⟩ :=
        h.waits _ _ hw
      obtain rfl := Option.some.inj (hg.symm.trans hg')
      -- the call that is answered is the one the fiber waits in
      cases hstep with
      | call hf' hcall =>
        obtain rfl := Option.some.inj (hf.symm.trans hf')
        obtain ⟨_, heq, -⟩ := hcall.next hrest
        cases heq
        exact ⟨j, g, response, hstatus, hg, hmessage, hret, hconnected.append _⟩

/-- **The invariant is kept by every step.** -/
theorem Joined.step (h : Joined upstreamAddr r lookupCountry ls s)
    (hstep : SystemStep upstreamAddr r lookupCountry s l s') :
    Joined upstreamAddr r lookupCountry (ls ++ [l]) s' := by
  cases hstep with
  | gate hl hstep => exact h.gate_step hl hstep
  | connect hf hrest _ haccept => exact h.connect_step hf hrest haccept
  | serve hstep hserves => exact h.serve_step hstep hserves
  | other hstep =>
    refine ⟨?_, ?_, h.box, coherent_step h.coherent hstep, fun i j hw => ?_,
      fun i address timeout url status body hmem => ?_⟩
    · rw [gateLabels_concat]
      simpa [SystemLabel.gateLabel] using h.gate
    · rw [routerLabels_concat]
      simpa [SystemLabel.routerLabels] using h.router
    · obtain ⟨f, address, timeout, url, k, g, hf, hrest, hg, hmessage, hconnected⟩ := h.waits i j hw
      exact ⟨f, address, timeout, url, k, g, hf, hrest, hg, hmessage, hconnected.append _⟩
    · obtain ⟨j, g, response, hstatus, hg, hmessage, hret, hconnected⟩ :=
        h.answered _ _ _ _ _ _ hmem
      exact ⟨j, g, response, hstatus, hg, hmessage, hret, hconnected.append _⟩
  | answered hwaits hg hrest hstep =>
    refine h.reply_step (fun status body heq => ?_) hstep
    cases heq
    exact ⟨_, _, _, hwaits, hg, hrest, rfl⟩
  | failed hreply hstep =>
    exact h.reply_step (fun status body heq => absurd heq (hreply status body)) hstep

/-- A connection that has ended has executed its handler. -/
theorem Joined.makes_of_ret (h : Joined upstreamAddr r lookupCountry ls s) {j : ℕ}
    {g : Fiber HttpRequest ManagerCall ManagerCall.Reply HttpResponse} {response : HttpResponse}
    (hg : s.router.fibers[j]? = some g) (hret : g.rest = .ret response) :
    Makes (routeAdd g.message) (callsOf j (routerLabels ls)) response := by
  have hleads : Leads (routeAdd g.message) g.made g.rest :=
    sound_of_run sound_empty h.router g (List.mem_of_getElem? hg)
  have hmakes : Makes (routeAdd g.message) (g.made ++ []) response :=
    hleads.makes (by rw [hret]; exact .ret)
  have hcalls : callsOf j (routerLabels ls) = g.made := by
    rw [← show s.router.madeBy j = g.made by simp [Pool.madeBy, hg], run_madeBy h.router j]
    rfl
  rwa [hcalls, ← List.append_nil g.made]

theorem joined_of_run {s₀ : System} (h₀ : s₀.Idle)
    (h : Run (SystemStep upstreamAddr r lookupCountry) s₀ ls s) :
    Joined upstreamAddr r lookupCountry ls s :=
  h.inv_labels (Joined upstreamAddr r lookupCountry)
    (fun _ _ _ _ hI hstep => hI.step hstep) h₀.joined

/-! ### What is held -/

/-- What is done on the routes in this step leaves the reference alone up to `limit`. -/
def SystemLabel.Spares (l : SystemLabel) (key ip : Bytes) (limit : ℤ) : Prop :=
  ∀ done, l.done = some done → done.Spares key ip limit

/-- A step that spares a reference keeps it, and the index and the system route
table say the same after it. -/
theorem heldUntil_of_systemStep {key ip gateway : Bytes} {limit : ℤ}
    (hs : CoherentState s.service.routes s.service.host)
    (h : s.service.routes.HeldUntil key ip gateway limit) (hspares : l.Spares key ip limit)
    (hstep : SystemStep upstreamAddr r lookupCountry s l s') :
    CoherentState s'.service.routes s'.service.host ∧
      s'.service.routes.HeldUntil key ip gateway limit := by
  cases hstep with
  | gate _ _ | connect _ _ _ _ | answered _ _ _ _ | failed _ _ => exact ⟨hs, h⟩
  | serve _ hserves =>
    refine ⟨coherent_of_serves hs hserves, ?_⟩
    cases hserves with
    | getGlobalRoute | list => exact h
    | add hstep | remove hstep =>
      exact heldUntil_of_opStep hs.1.agree h (hspares _ rfl) (exec_restrict_iff.mp hstep).1
  | other hstep =>
    exact ⟨coherent_step hs hstep,
      heldUntil_of_opStep hs.1.agree h (hspares _ rfl) (exec_restrict_iff.mp hstep).1⟩

/-- **What nothing takes away is there**, in the index and in the system route table. -/
theorem held_of_run {key ip gateway : Bytes} {limit : ℤ}
    (hs : CoherentState s.service.routes s.service.host)
    (h : s.service.routes.HeldUntil key ip gateway limit)
    (hspares : ∀ l ∈ ls, l.Spares key ip limit)
    (hrun : Run (SystemStep upstreamAddr r lookupCountry) s ls s') :
    s'.service.routes.refs key ip = some gateway ∧ s'.service.host.kernel ip = some gateway := by
  induction hrun with
  | nil => exact ⟨h.refs, (hs.1 ip gateway).mpr ⟨key, h.refs⟩⟩
  | cons hstep _ ih =>
    obtain ⟨hs', h'⟩ := heldUntil_of_systemStep hs h (hspares _ List.mem_cons_self) hstep
    exact ih hs' h' fun l hl => hspares l (List.mem_cons_of_mem _ hl)

/-! ### What a client may count on -/

/-- **The address has been routed**: after fiber `i` asked for it, ip-router added the reference
and reported it done; and the reference is in the index and in the system route table, unless
something took it away since. -/
def Routed (before : List SystemLabel) (i : ℕ) (key ip gateway : Bytes) (ttl : ℤ)
    (s : System) : Prop :=
  ∃ ls₁ request ls₂ j es ls₃, before = ls₁ ++ .connect i request :: (ls₂ ++
      .serve j ⟨.add ip gateway key ttl, (.ok () : Except Bytes Unit)⟩
        (some ⟨.add ip gateway key ttl, es, .ok ()⟩) :: ls₃) ∧
    ∀ limit, (0 < ttl → ∀ now, ⟨.time, now⟩ ∈ es → limit ≤ now + ttl) →
      (∀ l ∈ ls₃, l.Spares key ip limit) →
      s.service.routes.refs key ip = some gateway ∧ s.service.host.kernel ip = some gateway

omit [Platform] [Acl] [Rfc1035] in
/-- The calls of a connection are steps of the system. -/
theorem serve_of_mem_callsOf {ls : List SystemLabel} {j : ℕ} {e : ManagerEvent}
    (h : e ∈ callsOf j (routerLabels ls)) :
    ∃ ls₁ done ls₂, ls = ls₁ ++ .serve j e done :: ls₂ := by
  obtain ⟨l, hl, hcall⟩ := List.mem_filterMap.mp h
  obtain ⟨l', hl', hmem⟩ := List.mem_flatMap.mp hl
  cases l with
  | push m => cases hcall
  | pop => cases hcall
  | call j' e' =>
    simp only [PoolLabel.callOf, Option.ite_none_right_eq_some, Option.some.injEq] at hcall
    obtain ⟨rfl, rfl⟩ := hcall
    cases l' with
    | gate _ | other _ => cases hmem
    | connect i request => simp [SystemLabel.routerLabels] at hmem
    | serve j'' e'' done =>
      cases List.mem_singleton.mp hmem
      obtain ⟨ls₁, ls₂, rfl⟩ := List.append_of_mem hl'
      exact ⟨ls₁, done, ls₂, rfl⟩

/-- An addition that a connection of fiber `i` made and that was reported done. -/
theorem routed_of_call {s₀ : System} (h₀ : s₀.Idle)
    (hrun : Run (SystemStep upstreamAddr r lookupCountry) s₀ ls s) {i j : ℕ}
    (hconnected : Connected ls i j) {key ip gateway : Bytes} {ttl : ℤ}
    (hcall : ⟨.add ip gateway key ttl, (.ok () : Except Bytes Unit)⟩ ∈
      callsOf j (routerLabels ls)) :
    Routed ls i key ip gateway ttl s := by
  obtain ⟨ls₁, request, ls₂, rfl, hnone⟩ := hconnected
  have hafter : ⟨.add ip gateway key ttl, (.ok () : Except Bytes Unit)⟩ ∈
      callsOf j (routerLabels ls₂) := by
    have hsplit : callsOf j (routerLabels (ls₁ ++ .connect i request :: ls₂)) =
        callsOf j (routerLabels ls₁) ++ callsOf j (routerLabels ls₂) := by
      rw [routerLabels, List.flatMap_append, callsOf, List.filterMap_append]
      rfl
    rwa [hsplit, hnone] at hcall
  obtain ⟨ls₃, done, ls₄, rfl⟩ := serve_of_mem_callsOf hafter
  rw [← List.cons_append, ← List.append_assoc] at hrun
  obtain ⟨s₁, h₁, hrest⟩ := run_append_iff.mp hrun
  have hcoherent := (joined_of_run h₀ h₁).coherent
  cases hrest with
  | cons hstep hrest =>
    cases hstep with
    | serve _ hserves =>
      have hcoherent' := coherent_of_serves hcoherent hserves
      cases hserves with
      | @add _ _ _ _ es _ _ hadd =>
        have hany : OpStep Env.any s₁.service ⟨.add ip gateway key ttl, es, .ok ()⟩ _ :=
          (exec_restrict_iff.mp hadd).1
        refine ⟨ls₁, request, ls₃, j, es, ls₄, rfl, fun limit hlimit hspares => ?_⟩
        exact held_of_run hcoherent' (heldUntil_of_add hany hlimit) hspares hrest

/-- **The routes are there before the answer**, in every run of dns-gate and ip-router: when a
client is sent an answer whose addresses are to be routed, and the request for them was answered
with 200, then each of them has been routed under the name that was asked for; the client asked for
the name, and the answer is the one the upstream server sent for it. -/
theorem routed_of_answer (hquad : Canonical) (hacl : Acl.Documented) {s₀ : System}
    (h₀ : s₀.Idle) (hrun : Run (SystemStep upstreamAddr r lookupCountry) s₀ ls s) {i server : ℕ}
    {data peer : Bytes} {sent : Except Bytes Unit}
    (hanswer : SystemStep upstreamAddr r lookupCountry s
      (.gate (.call i ⟨.answer server data peer, sent⟩)) s') :
    ∃ m request response, (pushed (gateLabels ls))[i]? = some m ∧ (server, peer) = m.client ∧
      Rfc1035.parseRequest m.data = some request ∧ Rfc1035.parseReply data = some response ∧
      response.qid = request.qid ∧
      ∀ name, request.name = some name → Routing r lookupCountry name response.response.addrs4a →
        (∃ address timeout body, ⟨.router (.post address timeout
          (r.url name (r.matched lookupCountry response.response.addrs4a))),
            RouterReply.answered 200 body⟩ ∈ callsOf i (gateLabels ls)) →
        ∃ gateway, ∀ ip ∈ response.response.addrs4a, r.routed lookupCountry ip = true →
          Routed ls i (name.map toLower) ip gateway r.routeTtl s' := by
  have hjoined := joined_of_run h₀ hrun
  cases hanswer with
  | gate hl hstep =>
    obtain ⟨m, request, response, -, hm, hclient, hrequest, hparse, hqid, -, -⟩ := relayed_of_run
      (hjoined.gate.snoc hstep)
    refine ⟨m, request, response, hm, hclient, hrequest, hparse, hqid,
      fun name hname hrouting => ?_⟩
    rintro ⟨address, timeout, body, hpost⟩
    have hmade : s.gate.madeBy i = callsOf i (gateLabels ls) := by
      simpa [Pool.madeBy, Pool.empty] using run_madeBy hjoined.gate i
    rw [← hmade] at hpost
    obtain ⟨j, g, result, hstatus, hg, hmessage, hret, hconnected⟩ :=
      hjoined.answered _ _ _ _ _ _ hpost
    have hmakes := hjoined.makes_of_ret hg hret
    rw [hmessage] at hmakes
    obtain ⟨htokens, hsome, hvalid, hbatch⟩ := hrouting.request hquad hacl
    rw [← matched_eq] at htokens hsome hvalid hbatch
    obtain ⟨settings, ips, hips, hadds⟩ := hbatch.makes_of_ok hmakes (by omega)
    refine ⟨effectiveGateway settings r.routeGateway, fun ip hip hrouted =>
      routed_of_call h₀ hrun hconnected (hadds ip ?_)⟩
    rw [hacl.split2, htokens] at hips
    rw [eq_of_destinations hvalid hips, matched_eq, List.mem_eraseDups, List.mem_eraseDups,
      List.mem_filter]
    exact ⟨hip, hrouted⟩

/-- What the proxy does without ip-router, it does in the system. -/
theorem system_of_gate {ls : List ProxyLabel} {gate' : Proxy}
    (h : Run (ProxyStep upstreamAddr r lookupCountry) s.gate ls gate')
    (hl : ∀ l ∈ ls, asksRouter l = false) :
    Run (SystemStep upstreamAddr r lookupCountry) s (ls.map .gate) { s with gate := gate' } := by
  generalize hgate : s.gate = gate at h
  induction h generalizing s with
  | nil =>
    subst hgate
    exact .nil
  | @cons _ g _ l ls hstep _ ih =>
    subst hgate
    refine .cons (.gate ?_ hstep)
      (ih (s := { s with gate := g }) (fun l' hl' => hl l' (List.mem_cons_of_mem _ hl')) rfl)
    rintro i c reply rfl
    cases hl _ List.mem_cons_self

end Joined

section Sample

omit [Platform] [Acl] [Rfc1035]

/-- The steps of the proxy up to the request to ip-router. -/
def sampleExchange : List (PoolAction RequestMessage ProxyCall ProxyCall.Reply) :=
  [.push ⟨5, text "10.0.0.8|4002", sampleQuery 86 120⟩, .pop, .call 0 (sampleSockets (.ok [])),
    .call 0 (sampleSockets (.ok [])), .call 0 (sampleSockets (.ok (sampleReply 86 120)))]

/-- The program of the proxy. -/
abbrev sampleHandle : RequestMessage → ProxyProg Unit :=
  @handleRequest sampleRfc1035 percentAcl (text "114.114.114.114|53") sampleRouter sampleCountry

/-- The proxy when it is about to send the request to ip-router, and how it came there. -/
def sampleGate : List ProxyLabel × Proxy := Pool.empty.play sampleHandle sampleExchange

/-- The request to ip-router. -/
def sampleUrl : Bytes :=
    @GeoipRouter.url percentAcl sampleRouter (text "example.com") [text "1.1.1.1"]

/-- ip-router with an empty index. -/
def sampleService : Service := ⟨bareHost, ⟨OrdMap.empty, [], false⟩⟩

/-- The request of the connection. -/
def sampleRequest : HttpRequest := ⟨@Acl.urlParameter percentAcl sampleUrl⟩

/-- What the handler of the connection is answered. -/
def sampleReplies : (c : ManagerCall) → c.Reply
  | .getGlobalRoute => ([], false)
  | .list => []
  | .add _ _ _ _ => .ok ()
  | .remove _ _ _ => .ok ()

/-- The addition of the address. -/
def sampleAddition : Done × Service :=
  @Service.play quadPlatform sampleService
    (.add (text "1.1.1.1") (text "10.1.0.254") (text "example.com") 600) []

/-- What the proxy does next: it sends the request to ip-router, and then the answer to the
client. -/
theorem next_sampleGate : ∃ f, sampleGate.2.fibers[0]? = some f ∧
    f.rest.next = some (.router (.post (text "127.0.0.1:8194") 3 sampleUrl)) ∧
    (f.rest.feed (sampleSockets (.ok []))).next =
      some (.answer 5 (sampleReply 86 120) (text "10.0.0.8|4002")) := by
  have h : sampleGate.2.fibers[0]?.map
      (fun f => (f.rest.next, (f.rest.feed (sampleSockets (.ok []))).next)) =
      some (some (.router (.post (text "127.0.0.1:8194") 3 sampleUrl)),
        some (.answer 5 (sampleReply 86 120) (text "10.0.0.8|4002"))) := by decide +kernel
  obtain ⟨f, hf, hnext⟩ := Option.map_eq_some_iff.mp h
  exact ⟨f, hf, (Prod.mk.inj hnext).1, (Prod.mk.inj hnext).2⟩

/-- The program of the connection. -/
abbrev sampleConnection : Handler HttpResponse := @routeAdd quadPlatform percentAcl sampleRequest

/-- The calls of the connection, one after the other, and the status of its response. -/
theorem next_sampleConnection : sampleConnection.next = some .getGlobalRoute ∧
    (sampleConnection.feed sampleReplies).next =
      some (.add (text "1.1.1.1") (text "10.1.0.254") (text "example.com") 600) ∧
    ((sampleConnection.feed sampleReplies).feed sampleReplies).outcome.map
      HttpResponse.status = some 200 := by
  decide +kernel

/-- The connection after some of its calls. -/
def sampleFiber (made : List ManagerEvent) (rest : Handler HttpResponse) :
    Fiber HttpRequest ManagerCall ManagerCall.Reply HttpResponse := ⟨sampleRequest, made, rest⟩

/-- The system with one connection. -/
def sampleSystem (connection : Fiber HttpRequest ManagerCall ManagerCall.Reply HttpResponse)
    (service : Service) : System :=
  ⟨sampleGate.2, Function.update (fun _ => none) 0 (some 0), ⟨[], [connection]⟩, service⟩

/-- The call that adds the address, with its answer. -/
abbrev sampleAdded : ManagerEvent :=
  ⟨.add (text "1.1.1.1") (text "10.1.0.254") (text "example.com") 600, (.ok () : Except Bytes Unit)⟩

/-- The proxy when its fiber `f` has the response of ip-router. -/
def sampleAnswered (f : Fiber RequestMessage ProxyCall ProxyCall.Reply Unit) : Proxy :=
  ⟨sampleGate.2.box, sampleGate.2.fibers.set 0 ⟨f.message, f.made ++
    [⟨.router (.post (text "127.0.0.1:8194") 3 sampleUrl), RouterReply.answered 200 []⟩],
      f.rest.feed (sampleSockets (.ok []))⟩⟩

/-- The steps of the system up to the answer. -/
def sampleSteps : List SystemLabel :=
  sampleGate.1.map .gate ++ [.connect 0 sampleRequest, .serve 0 ⟨.getGlobalRoute, ([], false)⟩ none,
    .serve 0 sampleAdded
      (some ⟨.add (text "1.1.1.1") (text "10.1.0.254") (text "example.com") 600,
        sampleAddition.1.calls, .ok ()⟩),
    .gate (.call 0 ⟨.router (.post (text "127.0.0.1:8194") 3 sampleUrl),
      RouterReply.answered 200 []⟩)]

/-- The proxy, asked by a client, gets its address routed before it answers. -/
theorem run_sampleSteps : ∃ s s',
    Run (@SystemStep quadPlatform percentAcl sampleRfc1035 (text "114.114.114.114|53") sampleRouter
      sampleCountry) ⟨.empty, fun _ => none, .empty, sampleService⟩ sampleSteps s ∧
    @SystemStep quadPlatform percentAcl sampleRfc1035 (text "114.114.114.114|53")
      sampleRouter sampleCountry s
      (.gate (.call 0 ⟨.answer 5 (sampleReply 86 120) (text "10.0.0.8|4002"),
        (.ok () : Except Bytes Unit)⟩)) s' := by
  let _ := quadPlatform
  let _ := percentAcl
  let _ := sampleRfc1035
  have hgate : Run (SystemStep (text "114.114.114.114|53") sampleRouter sampleCountry)
      ⟨.empty, fun _ => none, .empty, sampleService⟩ (sampleGate.1.map .gate)
      ⟨sampleGate.2, fun _ => none, .empty, sampleService⟩ :=
    system_of_gate (run_play sampleExchange .empty) (by decide +kernel)
  obtain ⟨f, hf, hpost, hanswer⟩ := next_sampleGate
  obtain ⟨k, hrest⟩ := Prog.next_eq_some.mp hpost
  obtain ⟨hfirst, hsecond, hstatus⟩ := next_sampleConnection
  obtain ⟨response, hended, hok⟩ := Option.map_eq_some_iff.mp hstatus
  have hret := Prog.outcome_eq_some.mp hended
  have hadd : OpStep (Env.without readdFails) sampleService
      ⟨.add (text "1.1.1.1") (text "10.1.0.254") (text "example.com") 600, sampleAddition.1.calls,
          .ok ()⟩ sampleAddition.2 :=
    OpStep.without (Service.opStep_play_of_result (by decide +kernel)) (by decide +kernel)
  have hconnect : SystemStep (text "114.114.114.114|53") sampleRouter sampleCountry
      ⟨sampleGate.2, fun _ => none, .empty, sampleService⟩ (.connect 0 sampleRequest)
      (sampleSystem (sampleFiber [] sampleConnection) sampleService) :=
    .connect hf hrest rfl (.cons .push (.cons (.pop rfl) .nil))
  have hget : SystemStep (text "114.114.114.114|53") sampleRouter sampleCountry
      (sampleSystem (sampleFiber [] sampleConnection) sampleService)
        (.serve 0 ⟨.getGlobalRoute, ([], false)⟩ none)
      (sampleSystem (sampleFiber [⟨.getGlobalRoute, ([], false)⟩]
          (sampleConnection.feed sampleReplies)) sampleService) :=
    .serve (step_of_next (f := sampleFiber [] sampleConnection) rfl hfirst
      sampleReplies) .getGlobalRoute
  have hserve : SystemStep (text "114.114.114.114|53") sampleRouter sampleCountry
      (sampleSystem (sampleFiber [⟨.getGlobalRoute, ([], false)⟩]
        (sampleConnection.feed sampleReplies)) sampleService)
      (.serve 0 sampleAdded _)
      (sampleSystem (sampleFiber [⟨.getGlobalRoute, ([], false)⟩, sampleAdded]
        ((sampleConnection.feed sampleReplies).feed sampleReplies)) sampleAddition.2) :=
    .serve (step_of_next (f := sampleFiber [⟨.getGlobalRoute, ([], false)⟩]
      (sampleConnection.feed sampleReplies)) rfl hsecond
      sampleReplies) (.add hadd)
  -- the connection has ended with the status 200
  have hpaid : ProxyStep (text "114.114.114.114|53") sampleRouter sampleCountry sampleGate.2
      (.call 0 ⟨.router (.post (text "127.0.0.1:8194") 3 sampleUrl),
        RouterReply.answered response.status []⟩)
      (sampleAnswered f) := by
    rw [hok]
    exact step_of_next hf hpost (sampleSockets (.ok []))
  have hreply : SystemStep (text "114.114.114.114|53") sampleRouter sampleCountry
      (sampleSystem (sampleFiber [⟨.getGlobalRoute, ([], false)⟩, sampleAdded]
        ((sampleConnection.feed sampleReplies).feed sampleReplies)) sampleAddition.2) _
      ⟨sampleAnswered f, _, _, _⟩ :=
    .answered (j := 0) (g := sampleFiber [⟨.getGlobalRoute, ([], false)⟩, sampleAdded]
        ((sampleConnection.feed sampleReplies).feed sampleReplies)) rfl rfl hret hpaid
  rw [hok] at hreply
  have hlast : (sampleAnswered f).fibers[0]? = some ⟨f.message, f.made ++
      [⟨.router (.post (text "127.0.0.1:8194") 3 sampleUrl), RouterReply.answered 200 []⟩],
          f.rest.feed (sampleSockets (.ok []))⟩ := by
    simp [sampleAnswered, (List.getElem?_eq_some_iff.mp hf).1]
  refine ⟨_, _,
    run_append_iff.mpr ⟨_, hgate, .cons hconnect (.cons hget (.cons hserve (.cons hreply .nil)))⟩,
    .gate ?_ (step_of_next hlast hanswer (sampleSockets (.ok [])))⟩
  rintro i c reply ⟨⟩

/-- In this run the address is routed before the client is sent the answer. -/
theorem routed_of_answer_one :
    ∃ s' gateway, Routed sampleSteps 0 (text "example.com") (text "1.1.1.1") gateway 600 s' := by
  let _ := quadPlatform
  let _ := percentAcl
  let _ := sampleRfc1035
  have hidle : System.Idle ⟨.empty, fun _ => none, .empty, sampleService⟩ :=
    ⟨rfl, fun _ => rfl, rfl, fun ip gateway => ⟨nofun, fun ⟨_, h⟩ => nomatch h⟩,
      Routes.NoEmpty.empty⟩
  have hrouting : Routing sampleRouter sampleCountry (text "example.com") [text "1.1.1.1"] :=
    ⟨⟨rfl, rfl⟩, by decide, by decide, ⟨by decide, by decide, by decide +kernel⟩, by decide,
      ⟨_, List.mem_singleton_self _, rfl⟩,
      decoded_percent _ _ _⟩
  obtain ⟨s, s', hrun, hanswer⟩ := run_sampleSteps
  obtain ⟨m, request, response, hm, -, hrequest, hparse, -, hrouted⟩ :=
    routed_of_answer (fun _ => rfl) ⟨fun _ _ => rfl, fun _ => rfl⟩ hidle hrun hanswer
  have hasked : (pushed (gateLabels sampleSteps))[0]? =
      some ⟨5, text "10.0.0.8|4002", sampleQuery 86 120⟩ := by
    decide +kernel
  obtain rfl := Option.some.inj (hasked.symm.trans hm)
  cases hrequest
  cases hparse
  have hpost : .gate (.call 0 ⟨.router (.post (text "127.0.0.1:8194") 3 sampleUrl),
      RouterReply.answered 200 []⟩) ∈ sampleSteps :=
    List.mem_append_right _ (by simp)
  obtain ⟨gateway, hrouted⟩ := hrouted (text "example.com") rfl hrouting
    ⟨_, _, _, List.mem_filterMap.mpr ⟨_, List.mem_filterMap.mpr ⟨_, hpost, rfl⟩, rfl⟩⟩
  exact ⟨s', gateway, hrouted (text "1.1.1.1") (List.mem_singleton_self _) rfl⟩

end Sample

end IpRouter.DnsGate
