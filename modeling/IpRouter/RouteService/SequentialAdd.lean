import IpRouter.RouteService.Batches
import IpRouter.RouteService.Schedule

/-!
# A batch of additions, one by one

Two handlers add routes: `route_add` for the addresses in `ips`, and
`change_route` for the one in `ip`. Each resolves the gateway and checks key and
time to live by itself, and in another order. A batch that is not refused does on
the host exactly what the single requests for its addresses do, sent one after the
other (`serve_batch`), so it leaves what they leave and reports what they report
(`batch_is_singles`).
-/

namespace IpRouter.RouteService

open Theory RouteManager

variable [Platform]

/-! ### The single requests -/

/-- The request for one address of a batch: it has the other parameters of the batch, and no
list. -/
def single (request : HttpRequest) (ip : Bytes) : HttpRequest where
  getParameter name :=
    if name = text "ip" then some ip else if name = text "ips" then none
      else request.getParameter name

/-- Send a request after others, and keep the response with theirs. -/
def send [Acl] (done : Memory × List HttpResponse) (request : HttpRequest) :
    HostProg (Memory × List HttpResponse) := do
  let r ← serve (routeAdd request) done.1
  return (r.1, done.2 ++ [r.2])

/-- Send requests to `POST /route` one after the other, and collect the responses. -/
def sendAll [Acl] (requests : List HttpRequest) (m : Memory) :
    HostProg (Memory × List HttpResponse) :=
  Prog.loop send requests (m, [])

/-- Whether a response reports success. -/
def HttpResponse.success : HttpResponse → Bool
  | .reply json => json.success
  | .routesAdded _ success _ _ _ _ _ _ _ _ => success
  | .routesDeleted _ success _ _ _ _ => success

/-- What the response to a single request says about its address. -/
def HttpResponse.item : HttpResponse → AddedRoute
  | .reply json => ⟨json.destination.getD [], json.success, json.message⟩
  | other => ⟨[], other.success, []⟩

/-- The routes in the response to a batch. -/
def HttpResponse.added : HttpResponse → List AddedRoute
  | .routesAdded _ _ _ _ _ _ _ _ _ routes => routes
  | _ => []

/-! ### What the requests do -/

/-- The gateway `resolve_add_gateway` finds. -/
def resolvedGateway (m : Memory) (request : HttpRequest) : Except Bytes (Bytes × Bool) :=
  let requested := parameter request (text "gateway") (text "route")
  if m.globalGateway ≠ [] ∧ (m.forceGlobalGateway ∨ ¬ given requested) then
    .ok (m.globalGateway, true)
  else if ¬ validIpv4 requested then
    .error (if given requested then text "parameter 'gateway' must be a valid IPv4 address"
      else text "parameter 'gateway' is required when no global gateway is configured")
  else .ok (requested.getD [], false)

theorem serve_resolveAddGateway (request : HttpRequest) (m : Memory) :
    serve (resolveAddGateway request) m = pure (m, resolvedGateway m request) := by
  -- the call gives the settings in memory and leaves them
  change serve (if m.globalGateway ≠ [] ∧ (m.forceGlobalGateway ∨
      ¬ given (parameter request (text "gateway") (text "route"))) then
        pure (Except.ok (m.globalGateway, true))
    else if ¬ validIpv4 (parameter request (text "gateway") (text "route")) then
      pure (Except.error (if given (parameter request (text "gateway") (text "route")) then
          text "parameter 'gateway' must be a valid IPv4 address"
        else text "parameter 'gateway' is required when no global gateway is configured"))
    else
      pure (Except.ok ((parameter request (text "gateway") (text "route")).getD [], false))) m = _
  simp only [resolvedGateway]
  split_ifs <;> rfl

variable {request : HttpRequest} {m : Memory} {gateway key ip : Bytes} {applied : Bool} {ttl : ℤ}

/-- The response to a single request that was not refused. -/
def singleResponse (ip gateway key : Bytes) (ttl : ℤ) (applied : Bool) :
    Except Bytes Unit → HttpResponse
  | .error e => .reply ⟨500, false, e, some ip, some gateway, some key, none, none⟩
  | .ok _ =>
    .reply ⟨200, true, text "route added", some ip, some gateway, some key, some ttl, some applied⟩

omit [Platform] in
theorem getParameter_single {name : Bytes} (hip : name ≠ text "ip") (hips : name ≠ text "ips") :
    (single request ip).getParameter name = request.getParameter name := by
  simp only [single, hip, hips, if_false]

omit [Platform] in
theorem parameter_single {primary secondary : Bytes}
    (hprimary : primary ≠ text "ip" ∧ primary ≠ text "ips")
    (hsecondary : secondary ≠ text "ip" ∧ secondary ≠ text "ips") :
    parameter (single request ip) primary secondary = parameter request primary secondary := by
  simp only [parameter, getParameter_single hprimary.1 hprimary.2,
    getParameter_single hsecondary.1 hsecondary.2]

omit [Platform] in
theorem checkKey_single : checkKey (single request ip) = checkKey request := by
  have hkey : getRouteKey (single request ip) = getRouteKey request :=
    parameter_single (by decide) (by decide)
  simp only [checkKey, hkey]

omit [Platform] in
theorem parseTtl_single : parseTtl (single request ip) = parseTtl request := by
  have httl : (single request ip).getParameter (text "ttl") = request.getParameter (text "ttl") :=
    getParameter_single (by decide) (by decide)
  simp only [parseTtl, httl]

theorem resolvedGateway_single :
    resolvedGateway m (single request ip) = resolvedGateway m request := by
  have hgateway : parameter (single request ip) (text "gateway") (text "route") =
      parameter request (text "gateway") (text "route") := parameter_single (by decide) (by decide)
  simp only [resolvedGateway, hgateway]

/-- **What `change_route` does** with a valid address, when gateway and key are in order. -/
theorem serve_changeRoute (hdestination : parameter request (text "ip") (text "target") = some ip)
    (hip : validIpv4 (some ip) = true)
    (hgateway : resolvedGateway m request = .ok (gateway, applied))
    (hkey : checkKey request = .ok key) :
    serve (changeRoute request) m =
      match parseTtl request with
      | .error e => pure (m, badRequest e)
      | .ok ttl => do
        let r ← (Op.add ip gateway key ttl).prog m
        return (r.1, singleResponse ip gateway key ttl applied r.2) := by
  simp only [changeRoute]
  generalize parameter request (text "ip") (text "target") = destination at hdestination ⊢
  subst hdestination
  simp only [hip, not_true_eq_false, if_false, serve_bind, serve_resolveAddGateway, hgateway,
    pure_bind, hkey]
  cases parseTtl request with
  | error e => rfl
  | ok ttl =>
    refine congrArg ((Op.add ip gateway key ttl).prog m >>= ·) (funext fun r => ?_)
    rcases r with ⟨m', _ | _⟩ <;> rfl

/-- **What a single request does**, when the address and the other parameters are in order. -/
theorem serve_single [Acl] (hip : validIpv4 (some ip) = true)
    (hgateway : resolvedGateway m request = .ok (gateway, applied))
    (hkey : checkKey request = .ok key) (httl : parseTtl request = .ok ttl) :
    serve (routeAdd (single request ip)) m = do
      let r ← (Op.add ip gateway key ttl).prog m
      return (r.1, singleResponse ip gateway key ttl applied r.2) := by
  have hne : ip ≠ [] := by
    simp only [validIpv4, Bool.and_eq_true, decide_eq_true_eq] at hip
    exact hip.1
  have hlist : given ((single request ip).getParameter (text "ips")) = false := by
    have hips : text "ips" ≠ text "ip" := by decide
    simp [single, hips, given]
  have hdestination : parameter (single request ip) (text "ip") (text "target") = some ip := by
    simp [parameter, single, hne]
  simp only [routeAdd, hlist, Bool.false_eq_true, not_false_eq_true, if_true]
  rw [serve_changeRoute hdestination hip (resolvedGateway_single.trans hgateway)
    (checkKey_single.trans hkey), parseTtl_single, httl]

/-! ### What the batch does -/

/-- The response to a batch of `count` addresses, from those to its single requests. -/
def batchResponse (gateway key : Bytes) (ttl : ℤ) (applied : Bool) (count : ℕ)
    (responses : List HttpResponse) : HttpResponse :=
  let succeeded := responses.countP HttpResponse.success
  let allSucceeded : Bool := succeeded = count
  .routesAdded (batchStatus count succeeded) allSucceeded
    (if allSucceeded then text "all routes added" else text "one or more routes failed")
    gateway applied key ttl count succeeded (responses.map HttpResponse.item)

/-- **The loop of the batch** goes through the single requests. -/
theorem serve_addDestinations [Acl] (hkey : checkKey request = .ok key)
    (httl : parseTtl request = .ok ttl) (ips : List Bytes) :
    ∀ (m : Memory) (responses : List HttpResponse), (∀ ip ∈ ips, validIpv4 (some ip) = true) →
      resolvedGateway m request = .ok (gateway, applied) →
      serve (Prog.loop (addDestination gateway key ttl) ips
        (responses.countP HttpResponse.success, responses.map HttpResponse.item)) m =
      Prog.loop send (ips.map (single request)) (m, responses) >>= fun r =>
        pure (r.1, r.2.countP HttpResponse.success, r.2.map HttpResponse.item) := by
  induction ips with
  | nil => exact fun _ _ _ _ => rfl
  | cons ip ips ih =>
    intro m responses hips hgateway
    have hip := hips ip List.mem_cons_self
    rw [Prog.loop_cons, List.map_cons, Prog.loop_cons, send,
      serve_single hip hgateway hkey httl, serve_bind]
    -- both sides add the route, and go on with what `add` has left and reported
    have hadd : serve (addDestination gateway key ttl
        (responses.countP HttpResponse.success, responses.map HttpResponse.item) ip) m =
        (Op.add ip gateway key ttl).prog m >>= fun r => pure (r.1,
          (responses ++ [singleResponse ip gateway key ttl applied r.2]).countP
            HttpResponse.success,
          (responses ++ [singleResponse ip gateway key ttl applied r.2]).map
            HttpResponse.item) := by
      refine congrArg ((Op.add ip gateway key ttl).prog m >>= ·) (funext fun r => ?_)
      rcases r with ⟨m', _ | _⟩ <;>
        simp [singleResponse, List.countP_append, HttpResponse.success, HttpResponse.item] <;> rfl
    have hprog : ∀ {β : Type} (q : Memory × Except Bytes Unit → HostProg β),
        (Op.add ip gateway key ttl).prog m >>= q =
        add m.installedRoutes ip gateway key ttl >>= fun result =>
          q ({ m with installedRoutes := result.1 }, result.2) := by
      intro β q
      simp only [Op.prog, onRoutes, bind_assoc, pure_bind]
    rw [hadd]
    simp only [bind_assoc, pure_bind, hprog]
    refine congrArg (add m.installedRoutes ip gateway key ttl >>= ·) (funext fun result => ?_)
    exact ih { m with installedRoutes := result.1 } _
      (fun ip' hip' => hips ip' (List.mem_cons_of_mem _ hip')) hgateway

/-- The addresses of a batch that was not refused are valid. -/
theorem valid_of_collect {tokens ips : List Bytes} {unique : Distinct Bytes}
    (h : collect tokens unique = .ok ips) :
    ∀ it ∈ tokens, validIpv4 (some it) = true := by
  induction tokens generalizing unique with
  | nil => simp
  | cons it tokens ih =>
    rw [collect] at h
    split_ifs at h with hit
    intro it' hit'
    rcases List.mem_cons.mp hit' with rfl | hit'
    · exact hit
    · exact ih h it' hit'

/-- They are the distinct tokens, in the order of their first occurrences. -/
theorem of_destinations {tokens ips : List Bytes} (h : destinations tokens = .ok ips) :
    ips = tokens.eraseDups ∧ tokens ≠ [] ∧ ∀ ip ∈ ips, validIpv4 (some ip) = true := by
  unfold destinations at h
  split_ifs at h with hcount
  obtain ⟨hne, hlength⟩ := not_or.mp hcount
  have hvalid := valid_of_collect h
  have heq : ips = tokens.eraseDups := by
    have htaken := destinations_of_valid hne (not_lt.mp hlength) hvalid
    rw [destinations, if_neg hcount, h] at htaken
    exact Except.ok.inj htaken
  refine ⟨heq, hne, fun ip hip => hvalid ip ?_⟩
  rw [heq] at hip
  exact List.mem_eraseDups.mp hip

/-- **A batch that is not refused is its single requests**, as programs on the host. -/
theorem serve_batch [Acl] {values : Bytes}
    (hvalues : request.getParameter (text "ips") = some values) (hne : values ≠ []) :
    (∃ e, serve (routeAdd request) m = pure (m, badRequest e)) ∨
      ∃ ips gateway key ttl applied, destinations (Acl.split2 values (text ",; \t\r\n")) = .ok ips ∧
        resolvedGateway m request = .ok (gateway, applied) ∧ checkKey request = .ok key ∧
        parseTtl request = .ok ttl ∧
        serve (routeAdd request) m = do
          let r ← sendAll (ips.map (single request)) m
          return (r.1, batchResponse gateway key ttl applied ips.length r.2) := by
  have hgiven : given (some values) = true := by simpa [given] using hne
  simp only [routeAdd, hvalues, hgiven, not_true_eq_false, if_false, serve_bind,
    serve_resolveAddGateway, pure_bind, Option.getD_some]
  cases hgateway : resolvedGateway m request with
  | error e => exact Or.inl ⟨e, rfl⟩
  | ok resolved =>
    obtain ⟨gateway, applied⟩ := resolved
    cases hkey : checkKey request with
    | error e => exact Or.inl ⟨e, rfl⟩
    | ok key =>
      cases httl : parseTtl request with
      | error e => exact Or.inl ⟨e, rfl⟩
      | ok ttl =>
        cases hips : destinations (Acl.split2 values (text ",; \t\r\n")) with
        | error e => exact Or.inl ⟨e, rfl⟩
        | ok ips =>
          refine Or.inr ⟨ips, gateway, key, ttl, applied, rfl, rfl, rfl, rfl, ?_⟩
          have hloop := serve_addDestinations hkey httl ips m [] (of_destinations hips).2.2 hgateway
          rw [List.countP_nil, List.map_nil] at hloop
          simp only [serve_bind, hloop, bind_assoc, pure_bind]
          rfl

/-! ### The runs -/

variable [Acl] {A : Answers Host HostCall HostCall.Reply} {m' : Memory} {h h' : Host}
  {es : List HostEvent}

/-- Every single request is answered, and about its own address. -/
theorem ips_of_sendAll (hkey : checkKey request = .ok key) (httl : parseTtl request = .ok ttl)
    (hgateway : resolvedGateway m request = .ok (gateway, applied)) {ips : List Bytes}
    (hips : ∀ ip ∈ ips, validIpv4 (some ip) = true) {responses : List HttpResponse}
    (hrun : Exec A (sendAll (ips.map (single request)) m) h es (m', responses) h') :
    responses.map (fun r => r.item.ip) = ips := by
  rw [sendAll, Prog.loop_map] at hrun
  have hall : resolvedGateway m' request = .ok (gateway, applied) ∧
      responses.map (fun r => r.item.ip) = ips := by
    refine exec_loop_inv (fun ips _ (done : Memory × List HttpResponse) _ =>
      resolvedGateway done.1 request = .ok (gateway, applied) ∧
        done.2.map (fun r => r.item.ip) = ips) ?_ ⟨hgateway, rfl⟩ hrun
    rintro sent ip rest es ⟨m₁, responses⟩ h₁ es' ⟨m₂, responses'⟩ h₂ hsplit
      ⟨hgateway₁, hsent⟩ hsend
    have hip := hips ip (by simp [hsplit])
    simp only [send, serve_single hip hgateway₁ hkey httl, bind_assoc, pure_bind] at hsend
    obtain ⟨⟨m₃, result⟩, h₃, es₁, es₂, rfl, hadd, hret⟩ := exec_do_iff.mp hsend
    obtain ⟨-, heq, rfl⟩ := exec_pure_iff.mp hret
    obtain ⟨rfl, rfl⟩ := Prod.mk.inj heq
    constructor
    · -- adding leaves the global route
      obtain ⟨added, h₄, es₃, es₄, rfl, -, hret'⟩ := exec_do_iff.mp hadd
      obtain ⟨-, heq', -⟩ := exec_pure_iff.mp hret'
      obtain ⟨rfl, -⟩ := Prod.mk.inj heq'
      exact hgateway₁
    · rw [List.map_append, hsent]
      cases result <;> rfl
  exact hall.2

omit [Platform] [Acl] in
/-- The status of a batch says whether all, some or none of its requests succeeded. -/
theorem batchStatus_countP {responses : List HttpResponse} :
    batchStatus responses.length (responses.countP HttpResponse.success) =
      if ∀ r ∈ responses, r.success = true then 200
      else if ∃ r ∈ responses, r.success = true then 207 else 500 := by
  simp only [batchStatus, List.countP_eq_length, List.countP_eq_zero]
  by_cases hall : ∀ r ∈ responses, r.success = true
  · rw [if_pos hall, if_pos hall]
  · rw [if_neg hall, if_neg hall]
    by_cases hsome : ∃ r ∈ responses, r.success = true
    · rw [if_pos hsome, if_neg]
      obtain ⟨r, hr, hok⟩ := hsome
      exact fun hnone => hnone r hr hok
    · rw [if_neg hsome, if_pos]
      exact fun r hr hok => hsome ⟨r, hr, hok⟩

/-- **A batch leaves and reports what its single requests do**, or it is refused and
leaves everything as it was. -/
theorem batch_is_singles (hacl : Acl.Documented) {values : Bytes} {response : HttpResponse}
    (hvalues : request.getParameter (text "ips") = some values) (hne : values ≠ [])
    (hrun : Exec A (serve (routeAdd request) m) h es (m', response) h') :
    (response.status = 400 ∧ es = [] ∧ m' = m ∧ h' = h) ∨
      (response.status ≠ 400 ∧ ∃ responses,
        Exec A (sendAll ((tokens (text ",; \t\r\n") values).eraseDups.map (single request)) m) h es
          (m', responses) h' ∧
        response.added.map (fun r => (r.ip, r.success)) =
          (tokens (text ",; \t\r\n") values).eraseDups.zip (responses.map HttpResponse.success) ∧
        response.status =
          if ∀ r ∈ responses, r.success = true then 200
            else if ∃ r ∈ responses, r.success = true then 207 else 500) := by
  rcases serve_batch hvalues hne with ⟨e, hrefused⟩ |
    ⟨ips, gateway, key, ttl, applied, hips, hgateway, hkey, httl, hserve⟩
  · rw [hrefused] at hrun
    obtain ⟨rfl, heq, rfl⟩ := exec_pure_iff.mp hrun
    obtain ⟨rfl, rfl⟩ := Prod.mk.inj heq
    exact Or.inl ⟨rfl, rfl, rfl, rfl⟩
  · rw [hserve] at hrun
    obtain ⟨⟨m₁, responses⟩, h₁, es₁, es₂, rfl, hsent, hret⟩ := exec_do_iff.mp hrun
    obtain ⟨rfl, heq, rfl⟩ := exec_pure_iff.mp hret
    obtain ⟨rfl, rfl⟩ := Prod.mk.inj heq
    obtain ⟨htokens, -, hvalid⟩ := of_destinations hips
    rw [hacl.split2] at htokens
    have hips' := ips_of_sendAll hkey httl hgateway hvalid hsent
    have hlength : ips.length = responses.length := by rw [← hips', List.length_map]
    have hstatus : (batchResponse gateway key ttl applied ips.length responses).status =
        if ∀ r ∈ responses, r.success = true then 200
        else if ∃ r ∈ responses, r.success = true then 207 else 500 := by
      rw [← batchStatus_countP, hlength]
      rfl
    refine Or.inr ⟨?_, responses, ?_, ?_, hstatus⟩
    · rw [hstatus]
      split_ifs <;> decide
    · rw [List.append_nil, ← htokens]
      exact hsent
    · rw [← htokens, ← hips', List.zip_map', batchResponse, HttpResponse.added, List.map_map]
      refine List.map_congr_left fun r _ => ?_
      cases r <;> rfl

section Sample

omit [Platform] [Acl]

/-- A batch of three addresses, one of them twice, where the system refuses the second one. -/
theorem batch_is_singles_partial : ∃ (request : HttpRequest) (m m' : Memory) (h h' : Host)
    (es : List HostEvent) (response : HttpResponse) (responses : List HttpResponse),
    Exec Host.Answers (@serve quadPlatform _ (@routeAdd quadPlatform documentedAcl request) m) h es
        (m', response) h' ∧
      Exec Host.Answers (@sendAll quadPlatform documentedAcl
        ([text "10.0.0.1", text "10.0.0.2"].map (single request)) m) h es (m', responses) h' ∧
      response.status = 207 := by
  let _ := quadPlatform
  let _ := documentedAcl
  let request : HttpRequest := ⟨fun name =>
    if name = text "ips" then some (text "10.0.0.1, 10.0.0.2,10.0.0.1")
    else if name = text "gateway" then some (text "10.0.0.254")
      else if name = text "key" then some (text "a") else none⟩
  let m : Memory := ⟨OrdMap.empty, [], false⟩
  let h : Host := ⟨none, none, fun _ => none, 0⟩
  have hrun := exec_play Host.answers_answer {} (serve (routeAdd request) m)
    [{}, {}, {}, {}, {}, { ok := false }] h
  have hacl : Acl.Documented := ⟨fun _ _ => rfl, fun _ => rfl⟩
  have htokens : (tokens (text ",; \t\r\n") (text "10.0.0.1, 10.0.0.2,10.0.0.1")).eraseDups =
      [text "10.0.0.1", text "10.0.0.2"] := by decide +kernel
  have hvalues : request.getParameter (text "ips") = some (text "10.0.0.1, 10.0.0.2,10.0.0.1") := by
    decide +kernel
  have hstatus : ((serve (routeAdd request) m).play Host.answer {}
      [{}, {}, {}, {}, {}, { ok := false }] h).2.1.2.status =
      207 := by decide +kernel
  generalize (serve (routeAdd request) m).play Host.answer {}
    [{}, {}, {}, {}, {}, { ok := false }] h = out at hrun hstatus
  obtain ⟨es, ⟨m', response⟩, h'⟩ := out
  rcases batch_is_singles hacl hvalues (by decide) hrun with ⟨hrefused, -⟩ |
    ⟨-, responses, hsingles, -⟩
  · rw [hstatus] at hrefused
    cases hrefused
  · rw [htokens] at hsingles
    exact ⟨request, m, m', h, h', es, response, responses, hrun, hsingles, hstatus⟩

end Sample

end IpRouter.RouteService
