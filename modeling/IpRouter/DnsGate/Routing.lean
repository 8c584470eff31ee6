import IpRouter.DnsGate.GeoipRouter
import IpRouter.RouteService.Batches

/-!
# The batches dns-gate sends

dns-gate and ip-router have their own limits: the one for the length of a name
and how it writes a list of addresses, the other for the length of a key, the
separators of a list, and its length. They fit together (`batch_taken`): when a
DNS answer has addresses to route, and no more than ip-router takes at once, the
request passes every check of `route_add`, which adds exactly these addresses,
each once, in the order in which the answer first has them.

An answer may have more (`not_batch_taken`). dns-gate does not divide them, and
ip-router refuses the whole request.
-/

namespace IpRouter.DnsGate

open Theory RouteManager RouteService

/-! ### The addresses -/

/-- The loop over the answer keeps the first occurrences of what is to be routed. -/
theorem matched_eq (r : GeoipRouter) (lookupCountry : Bytes → Option Bytes)
    (addresses : List Bytes) :
    r.matched lookupCountry addresses = (addresses.filter (r.routed lookupCountry)).eraseDups := by
  rw [GeoipRouter.matched, ← Distinct.items_foldl_push, List.foldl_filter]

/-- The list has a comma before every address but the first. -/
theorem joinAddresses_cons {a : Bytes} (ha : a ≠ []) (addresses : List Bytes) :
    joinAddresses (a :: addresses) = a ++ addresses.flatMap fun it => 44 :: it := by
  have hfold : ∀ values : Bytes, values ≠ [] →
      addresses.foldl (fun values it => (if values = [] then [] else values ++ [44]) ++ it) values =
        values ++ addresses.flatMap fun it => 44 :: it := by
    induction addresses with
    | nil => simp
    | cons it addresses ih =>
      intro values hvalues
      rw [List.foldl_cons, if_neg hvalues, ih _ (by simp)]
      simp
  rw [joinAddresses, List.foldl_cons, if_pos rfl, List.nil_append, hfold a ha]

/-- **ip-router reads the list dns-gate writes.** -/
theorem tokens_joinAddresses {addresses : List Bytes} (hne : ∀ a ∈ addresses, a ≠ [])
    (hplain : ∀ a ∈ addresses, ∀ b ∈ a, b ∉ text ",; \t\r\n") :
    tokens (text ",; \t\r\n") (joinAddresses addresses) = addresses := by
  cases addresses with
  | nil => decide
  | cons a addresses =>
    rw [joinAddresses_cons (hne a List.mem_cons_self)]
    induction addresses generalizing a with
    | nil =>
      simpa using tokens_eq_singleton (hne a List.mem_cons_self) (hplain a List.mem_cons_self)
    | cons it addresses ih =>
      have ha := tokens_eq_singleton (hne a List.mem_cons_self) (hplain a List.mem_cons_self)
      rw [List.flatMap_cons, List.cons_append, tokens_append_cons (by decide), ha,
        ih it (fun b hb => hne b (List.mem_cons_of_mem _ hb))
          (fun b hb => hplain b (List.mem_cons_of_mem _ hb)),
        List.singleton_append]

/-- An address holds no separator. -/
theorem notMem_separators {a : Bytes} (ha : dottedQuad a = true) :
    ∀ b ∈ a, b ∉ text ",; \t\r\n" := by
  intro b hb hsep
  have hnot : ∀ b ∈ text ",; \t\r\n", isDigit b = false ∧ b ≠ 46 := by decide +kernel
  rcases isDigit_of_mem_dottedQuad ha hb with hdigit | hdot
  · rw [(hnot b hsep).1] at hdigit
    cases hdigit
  · exact (hnot b hsep).2 hdot

theorem toLower_printable {b : UInt8} (h : ¬ (b < 0x20 ∨ b = 0x7f)) :
    ¬ (toLower b < 0x20 ∨ toLower b = 0x7f) := by
  have hall : ∀ n < 256, ¬ (UInt8.ofNat n < 0x20 ∨ UInt8.ofNat n = 0x7f) →
      ¬ (toLower (UInt8.ofNat n) < 0x20 ∨ toLower (UInt8.ofNat n) = 0x7f) := by decide +kernel
  have hb := hall b.toNat b.toNat_lt
  rw [UInt8.ofNat_toNat] at hb
  exact hb h

/-! ### The request -/

variable [Acl] {r : GeoipRouter} {lookupCountry : Bytes → Option Bytes} {name : Bytes}
  {addresses : List Bytes}

/-- With something to route, dns-gate sends one request. -/
theorem makes_geoipRouteDnsResult (hopen : r.databaseOpen = true)
    (henabled : r.routingEnabled = true) (hname : name ≠ [])
    (hsome : r.matched lookupCountry addresses ≠ []) {es : List GateEvent} {u : Unit}
    (hrun : Makes (r.geoipRouteDnsResult lookupCountry (some name) addresses) es u) :
    ∃ reply, es = [⟨.post r.ipRouterAddr r.requestTimeout
      (r.url name (r.matched lookupCountry addresses)), reply⟩] := by
  have hgiven : given (some name) = true := by simpa [given] using hname
  simp only [GeoipRouter.geoipRouteDnsResult, hopen, henabled, hgiven, not_true_eq_false, or_self,
    if_false, hsome, ne_eq, not_false_eq_true, if_true, Option.getD_some] at hrun
  obtain ⟨ok, _, es₁, es₂, rfl, hadd, hret⟩ := exec_do_iff.mp hrun
  obtain ⟨reply, _, es₃, rfl, -, hreply⟩ := exec_lift_do_iff.mp hadd
  have hnil : es₃ = [] := by cases reply <;> exact (exec_pure_iff.mp hreply).1
  obtain ⟨rfl, -⟩ := exec_pure_iff.mp hret
  exact ⟨reply, by simp [hnil]⟩

/-- **What ip-router reads is what dns-gate wrote**: the parameters of the URL have their values. -/
structure GeoipRouter.Decoded (r : GeoipRouter) (name : Bytes) (addresses : List Bytes) : Prop where
  /-- `key`. -/
  key : Acl.urlParameter (r.url name addresses) (text "key") = some (Acl.lower name)
  /-- `ips`. -/
  ips : Acl.urlParameter (r.url name addresses) (text "ips") = some (joinAddresses addresses)
  /-- `gateway`. -/
  gateway : Acl.urlParameter (r.url name addresses) (text "gateway") = some r.routeGateway
  /-- `ttl`. -/
  ttl : Acl.urlParameter (r.url name addresses) (text "ttl") = some (decimal r.routeTtl)

/-- A name that is asked for: it fits into a DNS message and has no control characters. -/
structure QueryName (name : Bytes) : Prop where
  /-- It is not empty. -/
  ne : name ≠ []
  /-- It is not longer than DNS allows. -/
  length : name.length ≤ 253
  /-- It has no control characters. -/
  printable : ∀ b ∈ name, ¬ (b < 0x20 ∨ b = 0x7f)

/-- The name, lowercased, is a key ip-router takes. -/
theorem checkKey_of_name (hacl : Acl.Documented) (hname : QueryName name)
    {request : HttpRequest} (hkey : request.getParameter (text "key") = some (Acl.lower name)) :
    checkKey request = .ok (name.map toLower) := by
  rw [hacl.lower] at hkey
  have hne : name.map toLower ≠ [] := by simpa using hname.ne
  have hparameter : getRouteKey request = some (name.map toLower) := by
    simp [getRouteKey, parameter, hkey, hne]
  have hvalid : validRouteKey (some (name.map toLower)) = true := by
    have hlength : ¬ 256 < (name.map toLower).length := by
      have hle := hname.length
      rw [List.length_map]
      omega
    rw [validRouteKey, if_neg hne, if_neg hlength, List.all_eq_true]
    intro b hb
    obtain ⟨c, hc, rfl⟩ := List.mem_map.mp hb
    simpa using toLower_printable (hname.printable c hc)
  have hgiven : given (some (name.map toLower)) = true := by simpa [given] using hne
  simp [checkKey, hparameter, hvalid, hgiven]

omit [Acl] in
/-- The time to live is read as it was written. -/
theorem parseTtl_of_decimal {request : HttpRequest} {ttl : ℤ} (h : 0 ≤ ttl ∧ ttl ≤ 2147483647)
    (httl : request.getParameter (text "ttl") = some (decimal ttl)) :
    parseTtl request = .ok ttl := by
  have hparsed : strtoll (decimal ttl) = ⟨ttl, [], true, true⟩ :=
    strtoll_decimal (le_trans (by decide) h.1) (h.2.trans (by decide))
  have hne : decimal ttl ≠ [] := by
    intro hnil
    rw [hnil] at hparsed
    cases hparsed
  simp only [parseTtl, httl, hne, hparsed, if_false, not_true_eq_false, ne_eq, or_self]
  split_ifs with hpos
  · rfl
  · rw [show ttl = 0 by omega]

variable [Platform]

/-- The request is in order but for the length of its list. -/
theorem batch_of_decoded (hacl : Acl.Documented) (hname : QueryName name) (hsome : addresses ≠ [])
    (htokens : tokens (text ",; \t\r\n") (joinAddresses addresses) = addresses)
    (hgateway : validIpv4 (some r.routeGateway) = true)
    (httl : 0 ≤ r.routeTtl ∧ r.routeTtl ≤ 2147483647) (hdecoded : r.Decoded name addresses) :
    Batch ⟨Acl.urlParameter (r.url name addresses)⟩ (joinAddresses addresses) r.routeGateway
      (name.map toLower) r.routeTtl where
  values := by
    refine ⟨hdecoded.ips, fun hnil => hsome ?_⟩
    rw [← htokens, hnil]
    decide
  gateway := by
    have hne : r.routeGateway ≠ [] := by
      simp only [validIpv4, Bool.and_eq_true] at hgateway
      simpa using hgateway.1
    exact ⟨by simp [parameter, hdecoded.gateway, hne], hgateway⟩
  key := checkKey_of_name hacl hname hdecoded.key
  ttl := parseTtl_of_decimal httl hdecoded.ttl

/-! ### What becomes of the batch -/

/-- **The batch is taken**: dns-gate sends one request, which passes the checks of `route_add`,
and each address of the answer that is to be routed is added once, in the order of the answer,
under the lowercased name. -/
def BatchTaken (r : GeoipRouter) (lookupCountry : Bytes → Option Bytes) (name : Bytes)
    (addresses : List Bytes) : Prop :=
  ∃ url, (∀ es u, Makes (r.geoipRouteDnsResult lookupCountry (some name) addresses) es u →
      ∃ reply, es = [⟨.post r.ipRouterAddr r.requestTimeout url, reply⟩]) ∧
    ∀ es response, Makes (routeAdd ⟨Acl.urlParameter url⟩) es response →
      ∃ settings rest, es = ⟨.getGlobalRoute, settings⟩ :: rest ∧ response.status ≠ 400 ∧
        rest.map Sigma.fst = (addresses.filter (r.routed lookupCountry)).eraseDups.map fun ip =>
          .add ip (effectiveGateway settings r.routeGateway) (name.map toLower) r.routeTtl

/-- What dns-gate may be asked to route: an answer to a query, with something to route,
on a router that is set up. -/
structure Routing (r : GeoipRouter) (lookupCountry : Bytes → Option Bytes) (name : Bytes)
    (addresses : List Bytes) : Prop
    where
  /-- The router is set up. -/
  enabled : r.databaseOpen = true ∧ r.routingEnabled = true
  /-- Its gateway is valid. -/
  gateway : validIpv4 (some r.routeGateway) = true
  /-- Its time to live is an `int` that is not negative. -/
  ttl : 0 ≤ r.routeTtl ∧ r.routeTtl ≤ 2147483647
  /-- The name. -/
  query : QueryName name
  /-- The addresses are canonical. -/
  canonical : ∀ a ∈ addresses, dottedQuad a = true
  /-- One of them is to be routed. -/
  found : ∃ a ∈ addresses, r.routed lookupCountry a = true
  /-- ip-router reads the parameters dns-gate writes. -/
  decoded : r.Decoded name (addresses.filter (r.routed lookupCountry)).eraseDups

theorem Routing.request (h : Routing r lookupCountry name addresses) (hquad : Canonical)
    (hacl : Acl.Documented) :
    let matched := (addresses.filter (r.routed lookupCountry)).eraseDups
    tokens (text ",; \t\r\n") (joinAddresses matched) = matched ∧ matched ≠ [] ∧
      (∀ it ∈ matched, validIpv4 (some it) = true) ∧
      Batch ⟨Acl.urlParameter (r.url name matched)⟩ (joinAddresses matched) r.routeGateway
          (name.map toLower) r.routeTtl := by
  intro matched
  have hmem : ∀ a ∈ matched, dottedQuad a = true := fun a ha =>
    h.canonical a (List.mem_filter.mp (List.mem_eraseDups.mp ha)).1
  have hne : ∀ a ∈ matched, a ≠ [] := by
    rintro a ha rfl
    cases hmem [] ha
  have hsome : matched ≠ [] := by
    obtain ⟨a, ha, hrouted⟩ := h.found
    exact List.ne_nil_of_mem (List.mem_eraseDups.mpr (List.mem_filter.mpr ⟨ha, hrouted⟩))
  have htokens := tokens_joinAddresses hne fun a ha => notMem_separators (hmem a ha)
  exact ⟨htokens, hsome, fun it hit => validIpv4_of_dottedQuad hquad (hmem it hit),
    batch_of_decoded hacl h.query hsome htokens h.gateway h.ttl h.decoded⟩

/-- **A batch of at most 256 addresses is taken.** -/
theorem batch_taken (hquad : Canonical) (hacl : Acl.Documented)
    (h : Routing r lookupCountry name addresses)
    (hlength : (addresses.filter (r.routed lookupCountry)).eraseDups.length ≤ 256) :
    BatchTaken r lookupCountry name addresses := by
  obtain ⟨htokens, hsome, hvalid, hbatch⟩ := h.request hquad hacl
  refine ⟨r.url name (addresses.filter (r.routed lookupCountry)).eraseDups, fun es u hrun => ?_,
    fun es response hrun => ?_⟩
  · rw [← matched_eq] at hsome ⊢
    exact makes_geoipRouteDnsResult h.enabled.1 h.enabled.2 h.query.ne hsome hrun
  · obtain ⟨settings, rest, rfl, hadds, hstatus⟩ :=
      hbatch.makes_of_valid hacl htokens hsome hlength hvalid hrun
    rw [eraseDups_of_nodup (Distinct.nodup_eraseDups _)] at hadds
    exact ⟨settings, rest, rfl, hstatus, hadds⟩

/-- **A longer one is refused.** -/
theorem batch_refused (hquad : Canonical) (hacl : Acl.Documented)
    (h : Routing r lookupCountry name addresses)
    (hlength : 256 < (addresses.filter (r.routed lookupCountry)).eraseDups.length) :
    ¬ BatchTaken r lookupCountry name addresses := by
  obtain ⟨htokens, hsome, -, hbatch⟩ := h.request hquad hacl
  rintro ⟨url, hsend, hread⟩
  -- the URL is the one dns-gate sends
  obtain ⟨es, u, _, hrun⟩ : ∃ es u s, Exec (fun (_ : Unit) _ _ _ => True)
      (r.geoipRouteDnsResult lookupCountry (some name) addresses) () es u s :=
    exists_exec (fun _ _ => ⟨RouterReply.failed, (), trivial⟩) _ ()
  obtain ⟨reply, rfl⟩ := hsend es u hrun
  rw [← matched_eq] at hsome hbatch htokens hlength
  obtain ⟨reply', heq⟩ := makes_geoipRouteDnsResult h.enabled.1 h.enabled.2 h.query.ne hsome hrun
  cases heq
  -- and ip-router answers it with an error
  obtain ⟨es, response, _, hrun⟩ : ∃ es response s, Exec (fun (_ : Unit) _ _ _ => True)
      (routeAdd ⟨Acl.urlParameter (r.url name (r.matched lookupCountry addresses))⟩)
          () es response s := by
    refine exists_exec (fun _ c => ?_) _ ()
    cases c with
    | getGlobalRoute => exact ⟨([], false), (), trivial⟩
    | list => exact ⟨[], (), trivial⟩
    | add _ _ _ _ | remove _ _ _ => exact ⟨.ok (), (), trivial⟩
  obtain ⟨_, _, -, hstatus, -⟩ := hread es response hrun
  obtain ⟨_, -, hbad⟩ := hbatch.makes_of_long hacl htokens hlength hrun
  exact hstatus hbad

/-! ### An answer that is too long -/

section Sample

omit [Acl] [Platform]

/-- A byte as `url_encode` writes it. -/
def percentByte (b : UInt8) : Bytes :=
  let hex := fun n : UInt8 => if n < 10 then 48 + n else 55 + n
  if isDigit b || 97 ≤ toLower b && toLower b ≤ 122 || b = 45 || b = 46 || b = 95 || b = 126 then
    [b]
  else [37, hex (b / 16), hex (b % 16)]

/-- The text that was written so. -/
def percentDecode : Bytes → Bytes
  | b :: high :: low :: rest =>
    let value := fun d : UInt8 => if d ≤ 57 then d - 48 else d - 55
    if b = 37 then (value high * 16 + value low) :: percentDecode rest
      else b :: percentDecode (high :: low :: rest)
  | short => short

/-- Percent encoding of URLs. -/
abbrev percentAcl : Acl where
  split2 value separators := tokens separators value
  lower value := value.map toLower
  urlEncode value := value.flatMap percentByte
  urlParameter url name := ((url.dropWhile (· ≠ 63)).tail.splitOn 38).findSome? fun field =>
    if field.takeWhile (· ≠ 61) = name then
      some (percentDecode (field.dropWhile (· ≠ 61)).tail) else none

/-- The router with one country. -/
def sampleRouter : GeoipRouter :=
  ⟨true, true, OrdMap.empty.insert (text "CN") (), text "127.0.0.1:8194", text "10.1.0.254", 3, 600⟩

/-- The addresses from `10.0.0.0` on. -/
def sampleAddresses (count : ℕ) : List Bytes :=
  (List.range count).map fun i => text "10.0." ++ digits (i / 256) ++ 46 :: digits (i % 256)

/-- A country database that knows one country only. -/
def sampleCountry (_ : Bytes) : Option Bytes := some (text "CN")

/-- The place of a sample address in the list. -/
def sampleIndex (a : Bytes) : ℕ :=
  match a.splitOn 46 with
  | [_, _, high, low] => 256 * ofDigits high + ofDigits low
  | _ => 0

theorem filter_sample (addresses : List Bytes) :
    addresses.filter (sampleRouter.routed sampleCountry) = addresses :=
  List.filter_eq_self.mpr fun _ _ => rfl

theorem splitOn_sampleAddress (i : ℕ) :
    (text "10.0." ++ digits (i / 256) ++ 46 :: digits (i % 256)).splitOn 46 =
    [text "10", text "0", digits (i / 256), digits (i % 256)] := by
  have hdot : ∀ n, 46 ∉ digits n := fun n hmem => absurd (isDigit_of_mem_digits hmem) (by decide)
  have htext : text "10.0." = text "10" ++ 46 :: (text "0" ++ [46]) := by decide
  rw [htext]
  simp only [List.append_assoc, List.cons_append, List.nil_append]
  rw [List.splitOn_append_cons_self_of_not_mem (by decide),
    List.splitOn_append_cons_self_of_not_mem (by decide),
    List.splitOn_append_cons_self_of_not_mem (hdot _), List.splitOn_eq_singleton (hdot _)]

theorem nodup_sampleAddresses : (sampleAddresses 257).Nodup := by
  have hindex : (sampleAddresses 257).map sampleIndex = List.range 257 := by
    rw [sampleAddresses, List.map_map]
    refine (List.map_congr_left fun i _ => ?_).trans (List.map_id _)
    simp only [Function.comp_apply, sampleIndex, splitOn_sampleAddress, ofDigits_digits, id_eq]
    omega
  exact List.Nodup.of_map sampleIndex (hindex ▸ List.nodup_range)

theorem isOctet_digits {n : ℕ} (hn : n ≤ 255) : isOctet (digits n) = true := by
  simp [isOctet, ofDigits_digits, hn]

theorem dottedQuad_sampleAddresses : ∀ a ∈ sampleAddresses 257, dottedQuad a = true := by
  intro a ha
  obtain ⟨i, hi, rfl⟩ := List.mem_map.mp ha
  have hi := List.mem_range.mp hi
  have hhigh : isOctet (digits (i / 256)) = true := isOctet_digits (by omega)
  have hlow : isOctet (digits (i % 256)) = true := isOctet_digits (by omega)
  have hten : isOctet (text "10") = true ∧ isOctet (text "0") = true := by decide
  simp only [dottedQuad, splitOn_sampleAddress]
  simp [hhigh, hlow, hten]

/-- What is known of the code of a byte: it does not interfere with the form of a URL,
and is decoded to the byte. -/
theorem percentByte_spec (b : UInt8) : 38 ∉ percentByte b ∧
    ((b ≠ 37 ∧ percentByte b = [b]) ∨ ∃ high low, percentByte b = [37, high, low] ∧
      ∀ rest, percentDecode (37 :: high :: low :: rest) = b :: percentDecode rest) := by
  let hex := fun n : UInt8 => if n < 10 then 48 + n else 55 + n
  let value := fun d : UInt8 => if d ≤ 57 then d - 48 else d - 55
  have hall : ∀ n < 256, 38 ∉ percentByte (UInt8.ofNat n) ∧
      ((UInt8.ofNat n ≠ 37 ∧ percentByte (UInt8.ofNat n) = [UInt8.ofNat n]) ∨
        (percentByte (UInt8.ofNat n) = [37, hex (UInt8.ofNat n / 16), hex (UInt8.ofNat n % 16)] ∧
          value (hex (UInt8.ofNat n / 16)) * 16 + value (hex (UInt8.ofNat n % 16)) =
              UInt8.ofNat n)) := by
    decide +kernel
  have hb := hall b.toNat b.toNat_lt
  rw [UInt8.ofNat_toNat] at hb
  refine hb.imp_right (Or.imp_right ?_)
  rintro ⟨hcode, hvalue⟩
  refine ⟨_, _, hcode, fun rest => ?_⟩
  rw [percentDecode, if_pos rfl]
  exact congrArg (· :: percentDecode rest) hvalue

/-- **What is encoded is decoded.** -/
theorem percentDecode_flatMap (text : Bytes) : percentDecode (text.flatMap percentByte) = text := by
  induction text with
  | nil => rfl
  | cons b text ih =>
    rw [List.flatMap_cons]
    obtain ⟨-, ⟨hne, hcode⟩ | ⟨high, low, hcode, hdecode⟩⟩ := percentByte_spec b
    · -- a byte that stands for itself, whatever follows
      have hself : ∀ rest, percentDecode (b :: rest) = b :: percentDecode rest := by
        intro rest
        match rest with
        | [] => rfl
        | [_] => rfl
        | high :: low :: rest => rw [percentDecode, if_neg hne]
      rw [hcode, List.singleton_append, hself, ih]
    · rw [hcode, List.cons_append, List.cons_append, List.singleton_append, hdecode, ih]

theorem notMem_flatMap_percentByte (text : Bytes) : 38 ∉ text.flatMap percentByte := by
  rw [List.mem_flatMap]
  rintro ⟨b, -, hb⟩
  exact (percentByte_spec b).1 hb

/-- A parameter as it stands in a URL. -/
def percentField (name value : Bytes) : Bytes := name ++ 61 :: value.flatMap percentByte

theorem notMem_percentField {label value : Bytes} (hlabel : 38 ∉ label) :
    38 ∉ percentField label value := by
  intro hmem
  rcases List.mem_append.mp hmem with hmem | hmem
  · exact hlabel hmem
  · rcases List.mem_cons.mp hmem with heq | hmem
    · cases heq
    · exact notMem_flatMap_percentByte value hmem

theorem percentField_parts {label : Bytes} (hlabel : 61 ∉ label) (value : Bytes) :
    (percentField label value).takeWhile (· ≠ 61) = label ∧
      percentDecode ((percentField label value).dropWhile (· ≠ 61)).tail = value := by
  have hbefore : ∀ b ∈ label, decide (b ≠ 61) = true :=
    fun b hb => decide_eq_true fun heq => hlabel (heq ▸ hb)
  constructor
  · rw [percentField, List.takeWhile_append_of_pos hbefore, List.takeWhile_cons_of_neg (by decide),
      List.append_nil]
  · rw [percentField, List.dropWhile_append_of_pos hbefore, List.dropWhile_cons_of_neg (by decide),
      List.tail_cons, percentDecode_flatMap]

/-- The parameters in the URL of a request. -/
theorem fields_url (r : GeoipRouter) (name : Bytes) (addresses : List Bytes) :
    ((@GeoipRouter.url percentAcl r name addresses).dropWhile (· ≠ 63)).tail.splitOn 38 =
      [percentField (text "key") (name.map toLower),
        percentField (text "ips") (joinAddresses addresses),
        percentField (text "gateway") r.routeGateway,
          percentField (text "ttl") (decimal r.routeTtl)] := by
  let _ := percentAcl
  have hurl : r.url name addresses = text "/route" ++ 63 ::
      (percentField (text "key") (name.map toLower) ++
      38 :: (percentField (text "ips") (joinAddresses addresses) ++
        38 :: (percentField (text "gateway") r.routeGateway ++
          38 :: percentField (text "ttl") (decimal r.routeTtl)))) := by
    simp only [GeoipRouter.url, appendEncodedParameter, if_true, Bool.false_eq_true, if_false,
      List.append_assoc, List.cons_append, percentField]
    rfl
  have hroute : ∀ b ∈ text "/route", decide (b ≠ 63) = true := List.all_eq_true.mp rfl
  rw [hurl, List.dropWhile_append_of_pos hroute, List.dropWhile_cons_of_neg (by decide),
    List.tail_cons, List.splitOn_append_cons_self_of_not_mem (notMem_percentField (by decide)),
    List.splitOn_append_cons_self_of_not_mem (notMem_percentField (by decide)),
    List.splitOn_append_cons_self_of_not_mem (notMem_percentField (by decide)),
    List.splitOn_eq_singleton (notMem_percentField (by decide))]

/-- With percent encoding ip-router reads what dns-gate wrote. -/
theorem decoded_percent (r : GeoipRouter) (name : Bytes) (addresses : List Bytes) :
    @GeoipRouter.Decoded percentAcl r name addresses := by
  let _ := percentAcl
  have hkey := @percentField_parts (text "key") (by decide)
  have hips := @percentField_parts (text "ips") (by decide)
  have hgateway := @percentField_parts (text "gateway") (by decide)
  have httl := @percentField_parts (text "ttl") (by decide)
  constructor <;> simp only [Acl.urlParameter, fields_url, List.findSome?_cons, hkey,
    hips, hgateway, httl]
  · rfl
  · rfl
  · rfl
  · rfl

/-- An answer with 257 addresses is not taken. -/
theorem not_batch_taken : ¬ ∀ (r : GeoipRouter) (lookupCountry : Bytes → Option Bytes)
    (name : Bytes) (addresses : List Bytes),
    @Routing percentAcl quadPlatform r lookupCountry name addresses →
      @BatchTaken percentAcl quadPlatform r lookupCountry name addresses := by
  let _ := quadPlatform
  let _ := percentAcl
  intro hclaim
  have hmatched : ((sampleAddresses 257).filter (sampleRouter.routed sampleCountry)).eraseDups =
      sampleAddresses 257 := by
    rw [filter_sample, eraseDups_of_nodup nodup_sampleAddresses]
  have hrouting : Routing sampleRouter sampleCountry (text "Example.com") (sampleAddresses 257) :=
    ⟨⟨rfl, rfl⟩, by decide, by decide, ⟨by decide, by decide, by decide +kernel⟩,
      dottedQuad_sampleAddresses,
      ⟨text "10.0.0.0", by decide +kernel, rfl⟩, decoded_percent _ _ _⟩
  have hlength : (sampleAddresses 257).length = 257 := by
    rw [sampleAddresses, List.length_map, List.length_range]
  refine batch_refused (fun _ => rfl) ⟨fun _ _ => rfl, fun _ => rfl⟩ hrouting ?_
    (hclaim _ _ _ _ hrouting)
  rw [hmatched, hlength]
  decide

/-- An answer that has one of its two addresses twice is taken. -/
theorem batch_taken_twice : @BatchTaken percentAcl quadPlatform sampleRouter sampleCountry
    (text "Example.com") [text "10.0.0.2", text "10.0.0.1", text "10.0.0.2"] := by
  let _ := quadPlatform
  let _ := percentAcl
  refine batch_taken (fun _ => rfl) ⟨fun _ _ => rfl, fun _ => rfl⟩ ?_ (by decide)
  exact ⟨⟨rfl, rfl⟩, by decide, by decide, ⟨by decide, by decide, by decide +kernel⟩, by decide,
    ⟨_, List.mem_cons_self, rfl⟩, decoded_percent _ _ _⟩

end Sample

end IpRouter.DnsGate
