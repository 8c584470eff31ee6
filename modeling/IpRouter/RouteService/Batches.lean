import IpRouter.RouteManager.Codec
import IpRouter.RouteService.Handlers

/-!
# What a batch of additions asks for

`route_add` takes a batch when its key, its time to live and its gateway are in
order and `ips` lists between 1 and 256 canonical addresses, counted with their
repetitions; it then adds each address once, in the order in which they are first
listed (`Batch.makes_of_valid`). A longer list is refused before anything is added
(`Batch.makes_of_long`).
-/

namespace IpRouter.RouteService

open Theory RouteManager

variable [Platform]

/-! ### The addresses -/

theorem collect_of_valid {tokens : List Bytes} (h : ∀ it ∈ tokens, validIpv4 (some it) = true)
    (unique : Distinct Bytes) :
    collect tokens unique = .ok (tokens.foldl Distinct.push unique).items := by
  induction tokens generalizing unique with
  | nil => rfl
  | cons it tokens ih =>
    rw [collect, if_neg (by simpa using h it List.mem_cons_self)]
    exact ih (fun it hit => h it (List.mem_cons_of_mem _ hit)) _

/-- **A list of valid addresses that is not too long is taken**, each address once. -/
theorem destinations_of_valid {tokens : List Bytes} (hne : tokens ≠ [])
    (hlength : tokens.length ≤ 256) (h : ∀ it ∈ tokens, validIpv4 (some it) = true) :
    destinations tokens = .ok tokens.eraseDups := by
  rw [destinations, if_neg (by simpa [hne] using hlength), collect_of_valid h,
    Distinct.items_foldl_push]

/-- A list that is taken has been taken as it is, each address once. -/
theorem eq_of_destinations {tokens ips : List Bytes} (h : ∀ it ∈ tokens, validIpv4 (some it) = true)
    (htaken : destinations tokens = .ok ips) : ips = tokens.eraseDups := by
  rw [destinations] at htaken
  split_ifs at htaken
  rw [collect_of_valid h, Distinct.items_foldl_push] at htaken
  exact (Except.ok.inj htaken).symm

/-! ### The batch -/

/-- The status of a response. -/
def HttpResponse.status : HttpResponse → ℕ
  | .reply json => json.status
  | .routesAdded status _ _ _ _ _ _ _ _ _ => status
  | .routesDeleted status _ _ _ _ _ => status

/-- The gateway `route_add` uses, by what the global route is set to. -/
def effectiveGateway (settings : Bytes × Bool) (requested : Bytes) : Bytes :=
  if settings.1 ≠ [] ∧ settings.2 then settings.1 else requested

omit [Platform] in
theorem makes_addDestinations {gateway key : Bytes} {ttl : ℤ} {ips : List Bytes}
    {done done' : ℕ × List AddedRoute} {es : List ManagerEvent}
    (hrun : Makes (Prog.loop (addDestination gateway key ttl) ips done) es done') :
    es.map Sigma.fst = ips.map fun ip => .add ip gateway key ttl := by
  refine exec_loop_inv (fun ips es _ _ => es.map Sigma.fst = ips.map fun ip =>
    ManagerCall.add ip gateway key ttl) ?_ rfl hrun
  intro ips ip _ es _ _ es' _ _ _ h hadd
  obtain ⟨result, _, es₁, rfl, -, hret⟩ := exec_lift_do_iff.mp hadd
  have hnil : es₁ = [] := by cases result <;> exact (exec_pure_iff.mp hret).1
  simp [h, hnil]

variable {request : HttpRequest} {values gateway key : Bytes} {ttl : ℤ} {es : List ManagerEvent}
  {response : HttpResponse}

/-- A valid gateway is used unless the global route is forced. -/
theorem makes_resolveAddGateway
    (hgateway : parameter request (text "gateway") (text "route") = some gateway)
    (hvalid : validIpv4 (some gateway) = true) {result : Except Bytes (Bytes × Bool)}
    (hrun : Makes (resolveAddGateway request) es result) :
    ∃ settings applied, es = [⟨.getGlobalRoute, settings⟩] ∧
      result = .ok (effectiveGateway settings gateway, applied) := by
  obtain ⟨settings, _, es', rfl, -, hrun⟩ := exec_lift_do_iff.mp hrun
  have hgiven : given (some gateway) = true := by
    simp only [validIpv4, Bool.and_eq_true] at hvalid
    simpa [given] using hvalid.1
  have happlied : (settings.1 ≠ [] ∧ (settings.2 = true ∨ ¬ given (some gateway))) ↔
      settings.1 ≠ [] ∧ settings.2 = true := by
    simp [hgiven]
  simp only [hgateway, hvalid, happlied, not_true_eq_false, if_false, Option.getD_some] at hrun
  split_ifs at hrun with hglobal <;> obtain ⟨rfl, rfl, -⟩ := exec_pure_iff.mp hrun
  · have heffective : effectiveGateway settings gateway = settings.1 := if_pos hglobal
    exact ⟨settings, true, rfl, by rw [heffective]⟩
  · have heffective : effectiveGateway settings gateway = gateway := if_neg hglobal
    exact ⟨settings, false, rfl, by rw [heffective]⟩

/-- A batch that is in order but for its list of addresses. -/
structure Batch (request : HttpRequest) (values gateway key : Bytes) (ttl : ℤ) : Prop where
  /-- The list. -/
  values : request.getParameter (text "ips") = some values ∧ values ≠ []
  /-- The gateway. -/
  gateway : parameter request (text "gateway") (text "route") = some gateway ∧
    validIpv4 (some gateway) = true
  /-- The key. -/
  key : checkKey request = .ok key
  /-- The time to live. -/
  ttl : parseTtl request = .ok ttl

variable [Acl]

/-- `route_add` reads the global route and then checks the list. -/
theorem Batch.makes (h : Batch request values gateway key ttl)
    (hrun : Makes (routeAdd request) es response) :
    ∃ settings rest, es = ⟨.getGlobalRoute, settings⟩ :: rest ∧
      ((∃ e, destinations (Acl.split2 values (text ",; \t\r\n")) = .error e ∧ rest = [] ∧
        response = badRequest e) ∨
        ∃ ips, destinations (Acl.split2 values (text ",; \t\r\n")) = .ok ips ∧
          rest.map Sigma.fst =
            (ips.map fun ip => .add ip (effectiveGateway settings gateway) key ttl) ∧
          response.status ≠ 400) := by
  have hgiven : given (some values) = true := by simpa [given] using h.values.2
  simp only [routeAdd, h.values.1, hgiven, not_true_eq_false, if_false, Option.getD_some] at hrun
  obtain ⟨result, _, es₁, es₂, rfl, hgateway, hrun⟩ := exec_do_iff.mp hrun
  obtain ⟨settings, applied, rfl, rfl⟩ := makes_resolveAddGateway h.gateway.1 h.gateway.2 hgateway
  refine ⟨settings, es₂, rfl, ?_⟩
  simp only [h.key, h.ttl] at hrun
  cases hd : destinations (Acl.split2 values (text ",; \t\r\n")) with
  | error e =>
    simp only [hd] at hrun
    obtain ⟨rfl, rfl, -⟩ := exec_pure_iff.mp hrun
    exact Or.inl ⟨e, rfl, rfl, rfl⟩
  | ok ips =>
    simp only [hd] at hrun
    obtain ⟨⟨succeeded, results⟩, _, es₃, es₄, rfl, hloop, hret⟩ := exec_do_iff.mp hrun
    obtain ⟨rfl, rfl, -⟩ := exec_pure_iff.mp hret
    refine Or.inr ⟨ips, rfl, ?_, ?_⟩
    · rw [List.append_nil]
      exact makes_addDestinations hloop
    · simp only [HttpResponse.status, batchStatus]
      split_ifs <;> decide

/-- **A batch of 1 to 256 valid addresses is taken**: each address is added once,
in the order of the list. -/
theorem Batch.makes_of_valid (h : Batch request values gateway key ttl) (hacl : Acl.Documented)
    {ips : List Bytes} (htokens : tokens (text ",; \t\r\n") values = ips) (hne : ips ≠ [])
    (hlength : ips.length ≤ 256) (hvalid : ∀ it ∈ ips, validIpv4 (some it) = true)
    (hrun : Makes (routeAdd request) es response) :
    ∃ settings rest, es = ⟨.getGlobalRoute, settings⟩ :: rest ∧
      rest.map Sigma.fst =
        (ips.eraseDups.map fun ip => .add ip (effectiveGateway settings gateway) key ttl) ∧
      response.status ≠ 400 := by
  obtain ⟨settings, rest, rfl, hrest⟩ := h.makes hrun
  rw [hacl.split2, htokens, destinations_of_valid hne hlength hvalid] at hrest
  rcases hrest with ⟨e, he, -⟩ | ⟨ips', hips, hadds, hstatus⟩
  · cases he
  · cases hips
    exact ⟨settings, rest, rfl, hadds, hstatus⟩

/-- **A longer batch is refused**, before anything is added. -/
theorem Batch.makes_of_long (h : Batch request values gateway key ttl) (hacl : Acl.Documented)
    {ips : List Bytes} (htokens : tokens (text ",; \t\r\n") values = ips)
    (hlength : 256 < ips.length) (hrun : Makes (routeAdd request) es response) :
    ∃ settings, es = [⟨.getGlobalRoute, settings⟩] ∧ response.status = 400 := by
  obtain ⟨settings, rest, rfl, hrest⟩ := h.makes hrun
  rw [hacl.split2, htokens, destinations, if_pos (Or.inr hlength)] at hrest
  rcases hrest with ⟨e, -, rfl, rfl⟩ | ⟨ips', hips, -⟩
  · exact ⟨settings, rfl, rfl⟩
  · cases hips

/-! ### A batch that is reported done -/

omit [Platform] [Acl] in
theorem batchStatus_eq_ok {count succeeded : ℕ} : batchStatus count succeeded = 200 ↔
    succeeded = count := by
  unfold batchStatus
  split_ifs with hall <;> simp [hall]

omit [Platform] [Acl] in
/-- The additions counted as succeeded are no more than were made; when they
are as many, all succeeded. -/
theorem makes_addDestinations_ok {ips : List Bytes} {done' : ℕ × List AddedRoute}
    (hrun : Makes (Prog.loop (addDestination gateway key ttl) ips (0, [])) es done')
    (hall : done'.1 = ips.length) :
    ∀ ip ∈ ips, ⟨.add ip gateway key ttl, (.ok () : Except Bytes Unit)⟩ ∈ es := by
  refine (exec_loop_inv (fun ips es (done : ℕ × List AddedRoute) _ => done.1 ≤ ips.length ∧
    (done.1 = ips.length → ∀ ip ∈ ips, ⟨ManagerCall.add ip gateway key ttl,
    (.ok () : Except Bytes Unit)⟩ ∈ es)) ?_ (by simp) hrun).2 hall
  intro ips ip _ es done _ es' done' _ _ ⟨hle, hmade⟩ hadd
  obtain ⟨result, _, es₁, rfl, -, hret⟩ := exec_lift_do_iff.mp hadd
  rw [List.length_append, List.length_singleton]
  cases result with
  | error e =>
    obtain ⟨-, rfl, -⟩ := exec_pure_iff.mp hret
    exact ⟨Nat.le_succ_of_le hle, fun heq => by simp only at heq; omega⟩
  | ok u =>
    obtain ⟨rfl, rfl, -⟩ := exec_pure_iff.mp hret
    refine ⟨Nat.succ_le_succ hle, fun heq it hit => ?_⟩
    rcases List.mem_append.mp hit with hit | hit
    · exact List.mem_append_left _ (hmade (by simpa using heq) it hit)
    · obtain rfl := List.mem_singleton.mp hit
      exact List.mem_append_right _ (List.mem_singleton_self _)

/-- **A batch that is answered with 200** was taken, and all its addresses were added. -/
theorem Batch.makes_of_ok (h : Batch request values gateway key ttl)
    (hrun : Makes (routeAdd request) es response) (hstatus : response.status = 200) :
    ∃ settings ips, destinations (Acl.split2 values (text ",; \t\r\n")) = .ok ips ∧
      ∀ ip ∈ ips, ⟨.add ip (effectiveGateway settings gateway) key ttl,
        (.ok () : Except Bytes Unit)⟩ ∈ es := by
  have hgiven : given (some values) = true := by simpa [given] using h.values.2
  simp only [routeAdd, h.values.1, hgiven, not_true_eq_false, if_false, Option.getD_some] at hrun
  obtain ⟨result, _, es₁, es₂, rfl, hgateway, hrun⟩ := exec_do_iff.mp hrun
  obtain ⟨settings, applied, rfl, rfl⟩ := makes_resolveAddGateway h.gateway.1 h.gateway.2 hgateway
  simp only [h.key, h.ttl] at hrun
  cases hd : destinations (Acl.split2 values (text ",; \t\r\n")) with
  | error e =>
    simp only [hd] at hrun
    obtain ⟨-, rfl, -⟩ := exec_pure_iff.mp hrun
    cases hstatus
  | ok ips =>
    simp only [hd] at hrun
    obtain ⟨⟨succeeded, results⟩, _, es₃, es₄, rfl, hloop, hret⟩ := exec_do_iff.mp hrun
    obtain ⟨rfl, rfl, -⟩ := exec_pure_iff.mp hret
    have hall : succeeded = ips.length := batchStatus_eq_ok.mp hstatus
    refine ⟨settings, ips, rfl, fun ip hip => List.mem_append_right _ ?_⟩
    rw [List.append_nil]
    exact makes_addDestinations_ok hloop hall ip hip

end IpRouter.RouteService
