import IpRouter.DnsGate.NormalizeDomain
import IpRouter.DnsGate.Routing

/-!
# The diagnostics of dns-gate

`GET /lookup` resolves a name and reports, for every address of the answer,
whether it would be routed (`handle_domain_lookup`); `geoip_route_dns_result`
routes the addresses of an answer. Both read the static variables that
`geoip_router_start` and `geoip_router_stop` leave behind, the one address by
address, the other in a loop of its own that drops repetitions.

`Configured` is what every history of starts and stops leaves behind, whether the
database could be opened or not. `diagnostics_predict` is the comparison: the
report says that something would be routed when a request is sent, and marks the
addresses that are sent.
-/

namespace IpRouter.DnsGate

open Theory RouteService DomainManager

/-! ### Countries -/

/-- `toupper` in the C locale. -/
def toUpper (b : UInt8) : UInt8 := if 97 ≤ b && b ≤ 122 then b - 32 else b

/-- `uppercase`. -/
def uppercase (value : Bytes) : Bytes := value.map toUpper

/-- What libmaxminddb says about an address. -/
structure MmdbAnswer where
  /-- `gai_error`: whether the text was read as an address. -/
  gaiError : ℤ
  /-- `mmdb_error`: whether the database could be read. -/
  mmdbError : ℤ
  /-- `result.found_entry`. -/
  foundEntry : Bool
  /-- What `MMDB_get_value` returns for the code of the country. -/
  status : ℤ
  /-- `data.has_data`. -/
  hasData : Bool
  /-- Whether the data is a text. -/
  isText : Bool
  /-- The text. -/
  utf8String : Bytes

/-- `lookup_country`: the country, in capital letters. -/
def lookupCountry (mmdb : Bytes → MmdbAnswer) (ip : Bytes) : Option Bytes :=
  if (mmdb ip).gaiError ≠ 0 then none
  else if (mmdb ip).mmdbError ≠ 0 then none
  else if ¬ (mmdb ip).foundEntry then none
  else if (mmdb ip).status ≠ 0 then none
  else if ¬ (mmdb ip).hasData ∨ ¬ (mmdb ip).isText then none
  else some (uppercase (mmdb ip).utf8String)

variable [Acl]

/-- The country codes of a list; those that do not have two bytes are ignored. -/
def parseCountries (value : Option Bytes) : OrdMap Bytes Unit :=
  (Acl.split2 (argument value) (text ",; \t\r\n")).foldl
    (fun countries it => if (uppercase it).length = 2 then
      countries.insert (uppercase it) () else countries) OrdMap.empty

/-! ### Starts and stops -/

/-- The static variables before anything was called. -/
def GeoipRouter.initial : GeoipRouter := ⟨false, false, OrdMap.empty, [], [], 3, 600⟩

/-- `geoip_router_stop`. -/
def GeoipRouter.stop (r : GeoipRouter) : GeoipRouter :=
  { r with databaseOpen := false, routingEnabled := false }

/-- `geoip_router_start`, where `opened` says whether `MMDB_open` succeeds. -/
def GeoipRouter.start (r : GeoipRouter) (databasePath countries routerAddr gateway : Option Bytes)
    (timeout ttl : ℤ) (opened : Bool) : Bool × GeoipRouter :=
  let r := { r.stop with
    routedCountries := parseCountries countries
    ipRouterAddr := argument routerAddr
    routeGateway := argument gateway
    requestTimeout := timeout
    routeTtl := ttl
    routingEnabled := false }
  if argument databasePath = [] then (false, r)
  else if ¬ opened then (false, r)
  else (true, { r with
    databaseOpen := true
    routingEnabled := !r.routedCountries.isEmpty && r.ipRouterAddr ≠ [] && r.routeGateway ≠ [] })

/-- What dns-gate may call. -/
inductive GeoipCommand where
  /-- `geoip_router_start`, and whether `MMDB_open` succeeds. -/
  | start (databasePath countries routerAddr gateway : Option Bytes)
      (timeout ttl : ℤ) (opened : Bool)
  /-- `geoip_router_stop`. -/
  | stop

/-- A call. -/
def GeoipCommand.run (r : GeoipRouter) : GeoipCommand → GeoipRouter
  | .start databasePath countries routerAddr gateway timeout ttl opened =>
    (r.start databasePath countries routerAddr gateway timeout ttl opened).2
  | .stop => r.stop

/-- The static variables after these calls. -/
def GeoipRouter.after (commands : List GeoipCommand) : GeoipRouter :=
  commands.foldl GeoipCommand.run .initial

/-! ### The diagnostic -/

/-- `geoip_lookup_address`: whether the country is known, the country, and whether it is routed. -/
def GeoipRouter.lookupAddress (r : GeoipRouter) (mmdb : Bytes → MmdbAnswer) (ip : Option Bytes) :
    Bool × Bytes × Bool :=
  if ¬ r.databaseOpen ∨ ¬ given ip then (false, [], false)
  else
    match lookupCountry mmdb (ip.getD []) with
    | none => (false, [], false)
    | some country => (true, country, (r.routedCountries.find country).isSome)

/-- A parsed DNS response, as far as dns-gate reads it. -/
structure DnsResponse where
  /-- `get_addrs4a`: its addresses, as texts. -/
  addrs4a : List Bytes
  /-- `get_cnames`. -/
  cnames : List Bytes
  /-- The text of an address is not empty. -/
  addrs4a_ne : ∀ a ∈ addrs4a, a ≠ []

/-- What is reported about an address. -/
structure ReportedAddress where
  /-- `ip`. -/
  ip : Bytes
  /-- `country_found`. -/
  countryFound : Bool
  /-- `country`. -/
  country : Bytes
  /-- `route_matched`. -/
  routeMatched : Bool

/-- What is reported about a name. -/
structure LookupReport where
  /-- `domain`. -/
  domain : Bytes
  /-- `upstream`. -/
  upstream : Bytes
  /-- `database_ready`. -/
  databaseReady : Bool
  /-- `routing_ready`. -/
  routingReady : Bool
  /-- `count`. -/
  count : ℕ
  /-- `matched_count`. -/
  matchedCount : ℕ
  /-- `would_route`. -/
  wouldRoute : Bool
  /-- `cnames`. -/
  cnames : List Bytes
  /-- `addresses`. -/
  addresses : List ReportedAddress

/-- One round of the loop over the addresses. -/
def GeoipRouter.report (r : GeoipRouter) (mmdb : Bytes → MmdbAnswer)
    (done : ℕ × List ReportedAddress) (it : Bytes) :
    ℕ × List ReportedAddress :=
  let found := r.lookupAddress mmdb (some it)
  (if found.2.2 then done.1 + 1 else done.1, done.2 ++ [⟨it, found.1, found.2.1, found.2.2⟩])

/-- `handle_domain_lookup`: the report, or the status and message of an error. `resolve`
is `dgate_resolve_domain`. -/
def GeoipRouter.handleDomainLookup (r : GeoipRouter) (trimSpace : Bytes → Bytes)
    (mmdb : Bytes → MmdbAnswer) (upstream : Bytes) (resolve : Bytes → Except Bytes DnsResponse)
    (request : HttpRequest) : Except (ℕ × Bytes) LookupReport :=
  let domain := normalizeDomain trimSpace (request.getParameter (text "domain"))
  if ¬ domain.1 then .error (400, text "parameter 'domain' is invalid")
  else
    match resolve domain.2 with
    | .error error => .error (502, error)
    | .ok response =>
      let reported := response.addrs4a.foldl (r.report mmdb) (0, [])
      .ok {
        domain := domain.2
        upstream
        databaseReady := r.databaseOpen
        routingReady := r.routingEnabled
        count := response.addrs4a.length
        matchedCount := reported.1
        wouldRoute := 0 < reported.1 && r.routingEnabled
        cnames := response.cnames
        addresses := reported.2 }

/-! ### Texts that differ in case only -/

omit [Acl] in
theorem toNat_toUpper (b : UInt8) :
    (toUpper b).toNat = if 97 ≤ b.toNat ∧ b.toNat ≤ 122 then b.toNat - 32 else b.toNat := by
  have hiff : (97 ≤ b && b ≤ 122) = true ↔ 97 ≤ b.toNat ∧ b.toNat ≤ 122 := by
    simp only [Bool.and_eq_true, decide_eq_true_eq, UInt8.le_iff_toNat_le]
    rfl
  unfold toUpper
  split_ifs with h h' h'
  · rw [UInt8.toNat_sub_of_le _ _ (UInt8.le_iff_toNat_le.mpr (le_trans (by decide) (hiff.mp h).1))]
    rfl
  · exact absurd (hiff.mp h) h'
  · exact absurd (hiff.mpr h') h
  · rfl

omit [Acl] in
theorem toUpper_eq_iff {a b : UInt8} : toUpper a = toUpper b ↔ toLower a = toLower b := by
  rw [← UInt8.toNat_inj, ← UInt8.toNat_inj, toNat_toUpper, toNat_toUpper,
    toNat_toLower, toNat_toLower]
  split_ifs <;> omega

/-- The texts are the same but for the case of the letters of ASCII. -/
def SameIgnoringCase (s t : Bytes) : Prop := s.map toLower = t.map toLower

omit [Acl] in
theorem uppercase_eq_iff {s t : Bytes} : uppercase s = uppercase t ↔ SameIgnoringCase s t := by
  unfold uppercase SameIgnoringCase
  induction s generalizing t with
  | nil => simp [eq_comm]
  | cons a s ih =>
    cases t with
    | nil => simp
    | cons b t =>
      rw [List.map_cons, List.map_cons, List.map_cons, List.map_cons, List.cons.injEq,
        List.cons.injEq, ih, toUpper_eq_iff]

/-! ### Which addresses match -/

/-- The database has an entry for the address, and it names this country. -/
structure MmdbAnswer.Names (answer : MmdbAnswer) (country : Bytes) : Prop where
  /-- The text is an address. -/
  address : answer.gaiError = 0
  /-- The database was read. -/
  database : answer.mmdbError = 0
  /-- There is an entry. -/
  entry : answer.foundEntry = true
  /-- It has a country. -/
  value : answer.status = 0
  /-- The country has a code, which is a text. -/
  code : answer.hasData = true ∧ answer.isText = true
  /-- This one. -/
  country : answer.utf8String = country

omit [Acl] in
theorem lookupCountry_eq_some {mmdb : Bytes → MmdbAnswer} {ip c : Bytes} :
    lookupCountry mmdb ip = some c ↔ ∃ country, (mmdb ip).Names country ∧
      uppercase country = c := by
  unfold lookupCountry
  constructor
  · intro h
    split_ifs at h with hgai hmmdb hentry hstatus hcode
    rw [not_not] at hgai hmmdb hstatus
    rw [not_or, not_not, not_not] at hcode
    exact ⟨_, ⟨hgai, hmmdb, hentry, hstatus, hcode, rfl⟩, Option.some.inj h⟩
  · rintro ⟨_, h, rfl⟩
    simp [h.address, h.database, h.entry, h.value, h.code, h.country]

/-- The address lies in a country of the list: it has the code of one, whatever the case. -/
def InCountries (mmdb : Bytes → MmdbAnswer) (countries ip : Bytes) : Prop :=
  ∃ country, (mmdb ip).Names country ∧
    ∃ token ∈ tokens (text ",; \t\r\n") countries, token.length = 2 ∧ SameIgnoringCase country token

/-- **The countries of a list** are its two-byte tokens, in capital letters. -/
theorem find_parseCountries (hacl : Acl.Documented) {value : Option Bytes} {c : Bytes} :
    ((parseCountries value).find c).isSome = true ↔
      ∃ token ∈ tokens (text ",; \t\r\n") (argument value), token.length = 2 ∧
        uppercase token = c := by
  have hfold : ∀ (values : List Bytes) (countries : OrdMap Bytes Unit),
      ((values.foldl (fun countries it =>
        if (uppercase it).length = 2 then countries.insert (uppercase it) ()
          else countries) countries).find c).isSome = true ↔
      (countries.find c).isSome = true ∨ ∃ token ∈ values, token.length = 2 ∧
          uppercase token = c := by
    intro values
    induction values with
    | nil => simp
    | cons it values ih =>
      intro countries
      have hlength : (uppercase it).length = it.length := List.length_map _
      rw [List.foldl_cons, ih, List.exists_mem_cons_iff, ← or_assoc]
      refine or_congr_left ?_
      split_ifs with htwo
      · rw [OrdMap.find_insert]
        split_ifs with hc
        · simp [hc, ← hlength, htwo]
        · simp [Ne.symm hc]
      · rw [hlength] at htwo
        simp [htwo]
  rw [parseCountries, hacl.split2, hfold]
  simp

/-! ### What starts and stops leave behind -/

/-- The countries of the last start. -/
def configuredCountries (commands : List GeoipCommand) : Bytes :=
  commands.foldl (fun countries command => match command with
    | .start _ value _ _ _ _ _ => argument value
    | .stop => countries) []

/-- The router is set up with these countries, or not at all. -/
structure Configured (r : GeoipRouter) (countries : Bytes) : Prop where
  /-- There is no routing without a database. -/
  open_of_enabled : r.routingEnabled = true → r.databaseOpen = true
  /-- The countries are those of the list. -/
  countries : ∀ c, (r.routedCountries.find c).isSome = true ↔
    ∃ token ∈ tokens (text ",; \t\r\n") countries, token.length = 2 ∧ uppercase token = c

/-- Every start, whether it succeeds or not, leaves the router so. -/
theorem configured_start (hacl : Acl.Documented) (r : GeoipRouter)
    (databasePath countries routerAddr gateway : Option Bytes) (timeout ttl : ℤ) (opened : Bool) :
    Configured (r.start databasePath countries routerAddr gateway timeout ttl opened).2
      (argument countries) := by
  unfold GeoipRouter.start
  simp only
  split_ifs
  · exact ⟨fun h => (by cases h), fun c => find_parseCountries hacl⟩
  · exact ⟨fun _ => rfl, fun c => find_parseCountries hacl⟩
  · exact ⟨fun h => (by cases h), fun c => find_parseCountries hacl⟩

/-- **Every history of starts and stops** leaves the router set up with the
countries of the last start. -/
theorem configured_after (hacl : Acl.Documented) (commands : List GeoipCommand) :
    Configured (.after commands) (configuredCountries commands) := by
  induction commands using List.reverseRecOn with
  | nil =>
    exact ⟨fun h => (by cases h),
      fun c => by simp [GeoipRouter.after, GeoipRouter.initial, configuredCountries, tokens]⟩
  | append_singleton commands command ih =>
    rw [GeoipRouter.after, configuredCountries, List.foldl_concat, List.foldl_concat]
    cases command with
    | start databasePath countries routerAddr gateway timeout ttl opened =>
      exact configured_start hacl _ _ _ _ _ _ _ _
    | stop => exact ⟨fun h => (by cases h), ih.countries⟩

/-! ### The report and the request -/

omit [Acl] in
/-- The loop over the addresses reports on each of them, and counts those it marks. -/
theorem foldl_report (r : GeoipRouter) (mmdb : Bytes → MmdbAnswer) (addresses : List Bytes)
    (done : ℕ × List ReportedAddress) :
    addresses.foldl (r.report mmdb) done =
      (done.1 + addresses.countP fun it => (r.lookupAddress mmdb (some it)).2.2,
        done.2 ++ addresses.map
          fun it => ⟨it, (r.lookupAddress mmdb (some it)).1, (r.lookupAddress mmdb (some it)).2.1,
          (r.lookupAddress mmdb (some it)).2.2⟩) := by
  induction addresses generalizing done with
  | nil => simp
  | cons it addresses ih =>
    rw [List.foldl_cons, ih, List.countP_cons, List.map_cons]
    unfold GeoipRouter.report
    cases hmatched : (r.lookupAddress mmdb (some it)).2.2 <;>
      simp [hmatched, Nat.add_assoc, Nat.add_comm 1]

omit [Acl] in
/-- **An address is marked** when the loop that routes would take it, and there is a database. -/
theorem lookupAddress_routed (r : GeoipRouter) (mmdb : Bytes → MmdbAnswer) {ip : Bytes}
    (hip : ip ≠ []) :
    (r.lookupAddress mmdb (some ip)).2.2 =
      (r.databaseOpen && r.routed (lookupCountry mmdb) ip) := by
  have hgiven : given (some ip) = true := by simpa [given] using hip
  unfold GeoipRouter.lookupAddress GeoipRouter.routed
  cases r.databaseOpen with
  | false => simp
  | true =>
    simp only [hgiven, not_true_eq_false, or_self, if_false, Option.getD_some, Bool.true_and]
    cases lookupCountry mmdb ip <;> rfl

omit [Acl] in
/-- An address is routed when it lies in one of the countries. -/
theorem routed_iff {r : GeoipRouter} {countries : Bytes} (h : Configured r countries)
    {mmdb : Bytes → MmdbAnswer} {ip : Bytes} :
    r.routed (lookupCountry mmdb) ip = true ↔ InCountries mmdb countries ip := by
  unfold GeoipRouter.routed InCountries
  simp only [← uppercase_eq_iff]
  cases hc : lookupCountry mmdb ip with
  | none =>
    refine iff_of_false Bool.false_ne_true ?_
    rintro ⟨country, hnames, -⟩
    rw [lookupCountry_eq_some.mpr ⟨country, hnames, rfl⟩] at hc
    cases hc
  | some c =>
    obtain ⟨country, hnames, rfl⟩ := lookupCountry_eq_some.mp hc
    rw [h.countries]
    constructor
    · rintro ⟨token, htoken, hlength, heq⟩
      exact ⟨country, hnames, token, htoken, hlength, heq.symm⟩
    · rintro ⟨country', hnames', token, htoken, hlength, heq⟩
      obtain rfl : country' = country := hnames'.country.symm.trans hnames.country
      exact ⟨token, htoken, hlength, heq.symm⟩

variable {r : GeoipRouter} {mmdb : Bytes → MmdbAnswer} {trimSpace : Bytes → Bytes}
  {upstream : Bytes} {response : DnsResponse} {request : HttpRequest} {report : LookupReport}

/-- What a report says about the addresses of the answer. -/
theorem handleDomainLookup_eq_ok
    (h : r.handleDomainLookup trimSpace mmdb upstream (fun _ => .ok response) request =
      .ok report) :
    report.addresses = response.addrs4a.map (fun it => ⟨it, (r.lookupAddress mmdb (some it)).1,
        (r.lookupAddress mmdb (some it)).2.1, (r.lookupAddress mmdb (some it)).2.2⟩) ∧
      (report.wouldRoute = true ↔
        (∃ it ∈ response.addrs4a, (r.lookupAddress mmdb (some it)).2.2 = true) ∧
        r.routingEnabled = true) := by
  unfold GeoipRouter.handleDomainLookup at h
  simp only at h
  split_ifs at h
  obtain rfl := Except.ok.inj h
  simp [foldl_report, List.countP_pos_iff]

/-- With nothing to route, or without routing, dns-gate sends nothing. -/
theorem makes_nothing {name : Option Bytes} {addresses : List Bytes} {lookup : Bytes → Option Bytes}
    (hnone : r.routingEnabled = false ∨ r.matched lookup addresses = []) {es : List GateEvent}
    {u : Unit} (hrun : Makes (r.geoipRouteDnsResult lookup name addresses) es u) : es = [] := by
  unfold GeoipRouter.geoipRouteDnsResult at hrun
  split_ifs at hrun with hoff
  · exact (exec_pure_iff.mp hrun).1
  · rcases hnone with hdisabled | hnone
    · simp [hdisabled] at hoff
    · simp only [hnone, ne_eq, not_true_eq_false, if_false] at hrun
      exact (exec_pure_iff.mp hrun).1

/-- **The diagnostic predicts the routing**, after every history of starts and stops and whatever
the database says: it reports on the addresses of the answer, marks those in the countries of the
last start if there is a database, and announces exactly the request that is sent for the answer,
which lists the addresses it marks, each once. -/
theorem diagnostics_predict (hacl : Acl.Documented) (commands : List GeoipCommand) {name : Bytes}
    (hname : name ≠ [])
    (hreport : (GeoipRouter.after commands).handleDomainLookup trimSpace mmdb upstream
      (fun _ => .ok response) request = .ok report) :
    let r := GeoipRouter.after commands
    (r.routingEnabled = true → r.databaseOpen = true) ∧
      report.addresses.map (·.ip) = response.addrs4a ∧
      (∀ item ∈ report.addresses, item.routeMatched = true ↔
        r.databaseOpen = true ∧ InCountries mmdb (configuredCountries commands) item.ip) ∧
      ∀ es u, Makes (r.geoipRouteDnsResult (lookupCountry mmdb) (some name) response.addrs4a) es u →
        es.map Sigma.fst =
          if report.wouldRoute then
            [.post r.ipRouterAddr r.requestTimeout
              (r.url name ((report.addresses.filter (·.routeMatched)).map (·.ip)).eraseDups)]
          else [] := by
  intro r
  have hconfigured : Configured r (configuredCountries commands) := configured_after hacl commands
  obtain ⟨haddresses, hwould⟩ := handleDomainLookup_eq_ok hreport
  have hmarked : ∀ it ∈ response.addrs4a, (r.lookupAddress mmdb (some it)).2.2 =
      (r.databaseOpen && r.routed (lookupCountry mmdb) it) := fun it hit =>
    lookupAddress_routed r mmdb (response.addrs4a_ne it hit)
  refine ⟨hconfigured.open_of_enabled, ?_, ?_, ?_⟩
  · rw [haddresses, List.map_map]
    exact List.map_id _
  · intro item hitem
    rw [haddresses] at hitem
    obtain ⟨it, hit, rfl⟩ := List.mem_map.mp hitem
    rw [hmarked it hit, Bool.and_eq_true, routed_iff hconfigured]
  · intro es u hrun
    by_cases henabled : r.routingEnabled = true
    · have hopen : r.databaseOpen = true := hconfigured.open_of_enabled henabled
      have hmarks : (report.addresses.filter (·.routeMatched)).map (·.ip) =
          response.addrs4a.filter (r.routed (lookupCountry mmdb)) := by
        rw [haddresses, List.filter_map, List.map_map]
        refine (List.map_id _).trans (List.filter_congr fun it hit => ?_)
        rw [Function.comp_apply, hmarked it hit, hopen, Bool.true_and]
      have hwould' : report.wouldRoute = true ↔
          r.matched (lookupCountry mmdb) response.addrs4a ≠ [] := by
        rw [hwould, and_iff_left henabled, matched_eq, ne_eq,
          List.eq_nil_iff_forall_not_mem, not_forall_not]
        refine exists_congr fun it => ?_
        rw [List.mem_eraseDups, List.mem_filter]
        refine and_congr_right fun hit => ?_
        rw [hmarked it hit, hopen, Bool.true_and]
      by_cases hsome : r.matched (lookupCountry mmdb) response.addrs4a = []
      · rw [makes_nothing (Or.inr hsome) hrun, if_neg (mt hwould'.mp (not_not.mpr hsome))]
        rfl
      · obtain ⟨reply, rfl⟩ := makes_geoipRouteDnsResult hopen henabled hname hsome hrun
        rw [if_pos (hwould'.mpr hsome), hmarks, ← matched_eq]
        rfl
    · rw [Bool.not_eq_true] at henabled
      have hnot : ¬ report.wouldRoute = true := by
        rw [hwould, henabled]
        simp
      rw [makes_nothing (Or.inl henabled) hrun, if_neg hnot]
      rfl

section Sample

omit [Acl]

/-- A database that knows the country of one address. -/
def sampleMmdb (ip : Bytes) : MmdbAnswer :=
  ⟨0, 0, decide (ip = text "1.1.1.1"), 0, true, true, text "Cn"⟩

/-- An answer that has this address twice. -/
def sampleAnswer : DnsResponse := ⟨[text "1.1.1.1", text "2.2.2.2", text "1.1.1.1"], [], by decide⟩

/-- A stop, a start without a database, and one that succeeds. -/
def sampleCommands : List GeoipCommand :=
  [.stop, .start none (some (text "US")) none none 3 600 false,
    .start (some (text "country.mmdb")) (some (text "us, cn;xyz")) (some (text "127.0.0.1:8194"))
      (some (text "10.1.0.254")) 3 600 true]

/-- The address is marked twice and sent once. -/
theorem diagnostics_predict_twice : ∃ report : LookupReport,
    @GeoipRouter.handleDomainLookup documentedAcl (@GeoipRouter.after documentedAcl sampleCommands)
        id sampleMmdb [] (fun _ => .ok sampleAnswer) ⟨fun _ => some (text "Example.com")⟩ =
      .ok report ∧
      report.addresses.map (·.routeMatched) = [true, false, true] ∧
      ∀ es u, Makes (@GeoipRouter.geoipRouteDnsResult documentedAcl
          (@GeoipRouter.after documentedAcl sampleCommands) (lookupCountry sampleMmdb)
          (some (text "example.com")) sampleAnswer.addrs4a) es u →
        es.map Sigma.fst = [.post (text "127.0.0.1:8194") 3
          (@GeoipRouter.url documentedAcl (@GeoipRouter.after documentedAcl sampleCommands)
            (text "example.com") [text "1.1.1.1"])] := by
  let _ := documentedAcl
  cases hreport : (GeoipRouter.after sampleCommands).handleDomainLookup id sampleMmdb []
      (fun _ => .ok sampleAnswer)
      ⟨fun _ => some (text "Example.com")⟩ with
  | error message =>
    have hok : ((GeoipRouter.after sampleCommands).handleDomainLookup id sampleMmdb []
        (fun _ => .ok sampleAnswer)
        ⟨fun _ => some (text "Example.com")⟩).isOk = true := by decide +kernel
    rw [hreport] at hok
    cases hok
  | ok report =>
    have hshown : ((GeoipRouter.after sampleCommands).handleDomainLookup id sampleMmdb []
        (fun _ => .ok sampleAnswer)
        ⟨fun _ => some (text "Example.com")⟩).toOption.map (fun report => (report.wouldRoute,
          report.addresses.map (·.routeMatched),
          ((report.addresses.filter (·.routeMatched)).map (·.ip)).eraseDups)) =
        some (true, [true, false, true], [text "1.1.1.1"]) := by decide +kernel
    rw [hreport] at hshown
    simp only [Except.toOption, Option.map_some, Option.some.injEq, Prod.mk.injEq] at hshown
    obtain ⟨hwould, hmarks, hips⟩ := hshown
    refine ⟨report, rfl, hmarks, fun es u hrun => ?_⟩
    have hsent := (diagnostics_predict ⟨fun _ _ => rfl, fun _ => rfl⟩ sampleCommands
      (by decide : text "example.com" ≠ []) hreport).2.2.2 es u hrun
    rw [if_pos hwould, hips] at hsent
    exact hsent

end Sample

end IpRouter.DnsGate
