import IpRouter.Console.RouteGroups
import IpRouter.RouteService.SequentialDelete

/-!
# Deleting groups

The console deletes groups one target at a time: it keeps one target of each route
and asks the server to delete it under the key it came from. That is enough because
the server takes an address from all of its keys, and it is not too much because an
address has one gateway: no target that is kept has the address of another one.

`Emptying` is what holds after some of the requests, and `Emptying.step` one
request. `group_delete` is the result.
-/

namespace IpRouter.Console

open Theory RouteManager RouteService

/-- A target of `GET /routes`, as far as it matters here. -/
structure Target where
  /-- `ip`. -/
  ip : Units
  /-- `gateway`. -/
  gateway : Units

/-- The groups of `GET /routes`: `route_list`, with each text as the console
reads it out of the response. -/
def sourceGroups (decode : Bytes → Units) (routes : List RouteEntry) : List (SourceGroup Target) :=
  routes.map fun group =>
    ⟨decode group.key, group.targets.map fun target => ⟨decode target.ip, decode target.gateway⟩⟩

/-- `identity`. -/
def identity (t : Tagged Target) : Units := t.target.ip ++ 10 :: t.target.gateway

/-- `uniqueTargets`, of the groups that are selected. -/
def uniqueTargets (selected : List (RouteGroup Target)) : List (Tagged Target) :=
  ((selected.flatMap RouteGroup.targets).foldl Firsts.push (Firsts.empty : Firsts identity)).items

/-- What `routeRequest` does with a parameter: it leaves out empty ones. The server gets a C
string. -/
def sent (value : Units) : Option Bytes := if value = [] then none else some (cString (utf8 value))

/-- `routeRequest`, of a `DELETE` for a target. -/
def deleteRequest (t : Tagged Target) : HttpRequest where
  getParameter name := if name = text "key" then sent t.sourceKey else if name = text "ip" then
    sent t.target.ip else none

section Requests

variable [Platform]

/-- One round of the console's loop: a request, and its response. -/
def deleteOne (r : Memory × List HttpResponse) (t : Tagged Target) :
    HostProg (Memory × List HttpResponse) := do
  let answer ← serve (routeDelete (deleteRequest t)) r.1
  return (answer.1, r.2 ++ [answer.2])

/-- The requests of the console, one after the other, for the groups that are selected. -/
def deleteGroups (selected : List (RouteGroup Target)) (m : Memory) :
    HostProg (Memory × List HttpResponse) :=
  Prog.loop deleteOne (uniqueTargets selected) (m, [])

end Requests

/-! ### One request -/

/-- JSON keeps addresses, and the key that is read out of a response is sent back as it was. -/
structure Faithful (decode : Bytes → Units) (m : Routes) : Prop where
  /-- Digits and dots. -/
  ascii : ∀ s : Bytes, (∀ b ∈ s, isDigit b = true ∨ b = 46) → decode s = units s
  /-- Keys. -/
  key : ∀ key ip, m.lookup key ip ≠ none → utf8 (decode key) = key

variable [Platform] {decode : Bytes → Units} {m : Memory} {h : Host}

theorem isDigit_of_validIpv4 (hquad : Canonical) {ip : Bytes} (hip : validIpv4 (some ip) = true) :
    ∀ b ∈ ip, isDigit b = true ∨ b = 46 := by
  simp only [validIpv4, Bool.and_eq_true, hquad ip] at hip
  exact fun b hb => isDigit_of_mem_dottedQuad hip.2 hb

theorem ne_nil_of_validIpv4 {ip : Bytes} (hip : validIpv4 (some ip) = true) : ip ≠ [] := by
  rintro rfl
  simp [validIpv4] at hip

/-- What is sent for an address. -/
theorem utf8_decode_ip (hquad : Canonical) (hdecode : Faithful decode m.installedRoutes)
    {ip : Bytes} (hip : validIpv4 (some ip) = true) : utf8 (decode ip) = ip := by
  have hbytes := isDigit_of_validIpv4 hquad hip
  rw [hdecode.ascii ip hbytes]
  refine utf8_units fun b hb => ?_
  rcases hbytes b hb with hdigit | rfl
  · have := isDigit_iff.mp hdigit
    omega
  · decide

/-- Digits and dots are no newlines. -/
theorem newline_notMem_decode (hquad : Canonical) (hdecode : Faithful decode m.installedRoutes)
    {ip : Bytes} (hip : validIpv4 (some ip) = true) : 10 ∉ decode ip := by
  have hbytes := isDigit_of_validIpv4 hquad hip
  rw [hdecode.ascii ip hbytes, units, List.mem_map]
  rintro ⟨b, hb, hb'⟩
  have hnat : b.toNat = 10 := congrArg UInt16.toNat hb'
  rcases hbytes b hb with hdigit | rfl
  · have := isDigit_iff.mp hdigit
    omega
  · cases hnat

/-- What a request does that asks for an entry of the index, when every call succeeds. -/
structure Emptied (m : Memory) (ip : Bytes) (m' : Memory) (response : HttpResponse)
    (h' : Host) : Prop where
  /-- It is answered. -/
  status : response.status = 200
  /-- The address is gone from all keys, and nothing else. -/
  lookup : ∀ key ip', m'.installedRoutes.lookup key ip' = if ip' = ip then
    none else m.installedRoutes.lookup key ip'
  /-- Index and system route table agree. -/
  coherent : CoherentState m'.installedRoutes h'

variable {t : Tagged Target} {key ip : Bytes}

omit [Platform] in
theorem getRouteKey_deleteRequest (hkey : sent t.sourceKey = some key) (hne : key ≠ []) :
    getRouteKey (deleteRequest t) = some key := by
  have hget : (deleteRequest t).getParameter (text "key") = some key := hkey
  simp only [getRouteKey, parameter, hget, if_pos hne]

omit [Platform] in
theorem parameter_deleteRequest (hip : sent t.target.ip = some ip) (hne : ip ≠ []) :
    parameter (deleteRequest t) (text "ip") (text "target") = some ip := by
  have hget : (deleteRequest t).getParameter (text "ip") = some ip := hip
  simp only [parameter, hget, if_pos hne]

omit [Platform] in
/-- A filter that is given takes what is equal to it. -/
theorem wanted_some_iff {filter value : Bytes} (hne : filter ≠ []) :
    wanted (some filter) value = true ↔ value = filter := by
  have hgiven : given (some filter) = true := by simpa [given] using hne
  simp only [wanted, hgiven, not_true, false_or, Option.some_inj, decide_eq_true_eq]
  exact eq_comm

omit [Platform] in
/-- The entries a request asks for. -/
theorem mem_matches_deleteRequest (hkey : sent t.sourceKey = some key) (hkeyne : key ≠ [])
    (hip : sent t.target.ip = some ip) (hipne : ip ≠ []) {m : Routes} {key' ip' : Bytes} :
    (key', ip') ∈ Matches (deleteRequest t) m ↔ m.lookup key' ip' ≠ none ∧
      key' = key ∧ ip' = ip := by
  rw [Matches, getRouteKey_deleteRequest hkey hkeyne, parameter_deleteRequest hip hipne,
    Set.mem_ofPred_eq, wanted_some_iff hkeyne, wanted_some_iff hipne]

/-- A request for an entry of the index is valid. -/
theorem validFilter_deleteRequest (hkey : sent t.sourceKey = some key)
    (hip : sent t.target.ip = some ip) {metadata : RouteMetadata}
    (hrecord : (savedRoute key ip metadata).Plain) : ValidFilter (deleteRequest t) := by
  obtain ⟨hkeyne, hvalidkey⟩ : key ≠ [] ∧ validRouteKey (some key) = true :=
    validSavedKey_iff.mp hrecord.key
  have hgetkey := getRouteKey_deleteRequest hkey hkeyne
  have hgetip := parameter_deleteRequest hip (ne_nil_of_validIpv4 hrecord.ip)
  refine ⟨Or.inl ?_, fun _ => ?_, fun _ => ?_⟩
  · rw [hgetkey]
    simpa [given] using hkeyne
  · rw [hgetkey]
    exact hvalidkey
  · rw [hgetip]
    exact hrecord.ip

/-- **One request.** -/
theorem emptied_of_run {m' : Memory} {h' : Host} {es : List HostEvent}
    {response : HttpResponse} (hquad : Canonical) (hm : CoherentState m.installedRoutes h)
    (hplain : m.installedRoutes.Plain) (hthere : m.installedRoutes.lookup key ip ≠ none)
    (hkey : sent t.sourceKey = some key) (hip : sent t.target.ip = some ip)
    (hrun : Exec Host.Answers (serve (routeDelete (deleteRequest t)) m) h es (m', response) h')
    (hall : ∀ e ∈ es, fulfilled e = true) : Emptied m ip m' response h' := by
  obtain ⟨metadata, hl⟩ := Option.ne_none_iff_exists'.mp hthere
  have hrecord := hplain _ _ _ hl
  have hmatches : ∀ {key' ip'}, (key', ip') ∈ Matches (deleteRequest t) m.installedRoutes ↔
      m.installedRoutes.lookup key' ip' ≠ none ∧ key' = key ∧ ip' = ip :=
    mem_matches_deleteRequest hkey (validSavedKey_iff.mp hrecord.key).1 hip
      (ne_nil_of_validIpv4 hrecord.ip)
  have hreached : ∀ ip', reached (deleteRequest t) m.installedRoutes ip' = true ↔ ip' = ip := by
    intro ip'
    rw [reached_iff]
    constructor
    · rintro ⟨key', hmem⟩
      exact (hmatches.mp hmem).2.2
    · rintro rfl
      exact ⟨key, hmatches.mpr ⟨hthere, rfl, rfl⟩⟩
  have hnewline : ∀ key ip metadata,
      m.installedRoutes.lookup key ip = some metadata → 10 ∉ ip := fun _ _ _ hl' =>
    (unbroken_of_validIpv4 hquad (hplain _ _ _ hl').ip).newline
  obtain ⟨d, rfl, hs⟩ :=
    removing_of_run (validFilter_deleteRequest hkey hip hrecord) hm.1.agree hm.2 hnewline hrun
  have hok := verdicts_of_fulfilled hall
  have hlookup : ∀ key ip', m'.installedRoutes.lookup key ip' =
      if ip' = ip then none else m.installedRoutes.lookup key ip' := by
    intro key ip'
    rw [hs.routes_eq hok, lookup_without]
    exact if_congr (hreached ip') rfl rfl
  refine ⟨?_, hlookup, ?_, hs.noEmpty⟩
  · have hcount : (Matches (deleteRequest t) m.installedRoutes).ncard ≠ 0 := by
      rw [← length_matching]
      obtain ⟨entry, hentry, -⟩ := mem_matches_iff.mp (hmatches.mpr ⟨hthere, rfl, rfl⟩)
      exact (List.length_pos_of_mem hentry).ne'
    obtain ⟨message, routes, hresponse⟩ := hs.response_eq hok
    rw [hresponse, HttpResponse.status, if_neg hcount]
  · intro ip' gateway
    rw [hs.kernel hok]
    simp only [hs.gone_iff hok, hreached, Routes.refs, hlookup]
    split_ifs with hgone
    · simp
    · exact hm.1 ip' gateway

/-! ### The targets that are shown -/

/-- A target that is an entry of the index. -/
def Shown (decode : Bytes → Units) (m : Routes) (t : Tagged Target) : Prop :=
  ∃ key ip metadata, m.lookup key ip = some metadata ∧
    t = ⟨⟨decode ip, decode metadata.gateway⟩, decode key⟩

omit [Platform] in
/-- What is shown is in the index. -/
theorem shown_of_mem [Browser] (hlower : Browser.Documented) {items : List Units} {routes : Routes}
    {g : RouteGroup Target} (hg : g ∈ renderRoutes items (sourceGroups decode (list routes)))
    (ht : t ∈ g.targets) : Shown decode routes t := by
  have hmem := (targets_perm hlower).subset (List.mem_flatMap.mpr ⟨g, hg, ht⟩)
  obtain ⟨s, hs, ht⟩ := List.mem_flatMap.mp hmem
  obtain ⟨group, hgroup, rfl⟩ := List.mem_map.mp hs
  obtain ⟨⟨key, targets⟩, hentry, rfl⟩ := List.mem_map.mp hgroup
  simp only [SourceGroup.tagged, List.map_map, List.mem_map] at ht
  obtain ⟨⟨ip, metadata⟩, htarget, rfl⟩ := ht
  refine ⟨key, ip, metadata, ?_, rfl⟩
  rw [Routes.lookup, OrdMap.mem_entries_iff.mp hentry, Option.bind_some]
  exact OrdMap.mem_entries_iff.mp htarget

omit [Platform] in
theorem sent_eq {value : Units} {s : Bytes} (h : utf8 value = s) (hne : s ≠ [])
    (hcString : cString s = s) :
    sent value = some s := by
  have hvalue : value ≠ [] := by
    rintro rfl
    exact hne h.symm
  rw [sent, if_neg hvalue, h, hcString]

section Targets

variable {m₀ : Memory} {t' : Tagged Target} (hquad : Canonical) (hplain : m₀.installedRoutes.Plain)
  (hdecode : Faithful decode m₀.installedRoutes)

include hquad hplain hdecode

/-- What is sent for a target asks for its entry. -/
theorem Shown.sent (ht : Shown decode m₀.installedRoutes t) :
    ∃ key, m₀.installedRoutes.lookup key (utf8 t.target.ip) ≠ none ∧
    sent t.sourceKey = some key ∧ sent t.target.ip = some (utf8 t.target.ip) := by
  obtain ⟨key, ip, metadata, hl, rfl⟩ := ht
  have hrecord := hplain _ _ _ hl
  have hthere : m₀.installedRoutes.lookup key ip ≠ none := by
    rw [hl]
    exact Option.some_ne_none _
  have hkeyne : key ≠ [] := (validSavedKey_iff.mp hrecord.key).1
  have hip : utf8 (decode ip) = ip := utf8_decode_ip hquad hdecode hrecord.ip
  have hipne : ip ≠ [] := ne_nil_of_validIpv4 hrecord.ip
  refine ⟨key, ?_, ?_, ?_⟩
  · rw [hip]
    exact hthere
  · exact sent_eq (hdecode.key key ip hthere) hkeyne (unbroken_of_validSavedKey hrecord.key).cString
  · rw [hip]
    exact sent_eq hip hipne (unbroken_of_validIpv4 hquad hrecord.ip).cString

/-- **Targets of one route are those of one address**, because an address has one gateway. -/
theorem identity_eq_iff (hagree : m₀.installedRoutes.refs.Agree)
    (ht : Shown decode m₀.installedRoutes t) (ht' : Shown decode m₀.installedRoutes t') :
    identity t = identity t' ↔ utf8 t.target.ip = utf8 t'.target.ip := by
  obtain ⟨key, ip, metadata, hl, rfl⟩ := ht
  obtain ⟨key', ip', metadata', hl', rfl⟩ := ht'
  have hip : validIpv4 (some ip) = true := (hplain _ _ _ hl).ip
  have hip' : validIpv4 (some ip') = true := (hplain _ _ _ hl').ip
  constructor
  · intro h
    have hsplit := congrArg (List.splitOn 10) h
    rw [identity, identity,
      List.splitOn_append_cons_self_of_not_mem (newline_notMem_decode hquad hdecode hip),
      List.splitOn_append_cons_self_of_not_mem (newline_notMem_decode hquad hdecode hip')] at hsplit
    exact congrArg utf8 (List.cons_eq_cons.mp hsplit).1
  · intro h
    obtain rfl : ip = ip' :=
      (utf8_decode_ip hquad hdecode hip).symm.trans (h.trans (utf8_decode_ip hquad hdecode hip'))
    have hgateway : metadata.gateway = metadata'.gateway :=
      hagree (Routes.refs_eq_some.mpr ⟨metadata, hl, rfl⟩)
        (Routes.refs_eq_some.mpr ⟨metadata', hl', rfl⟩)
    rw [identity, identity, hgateway]

end Targets

/-! ### All of the requests -/

/-- **After some of the requests**: they were answered, and the addresses that were asked for are
gone. -/
structure Emptying (m₀ : Memory) (asked : List (Tagged Target)) (r : Memory × List HttpResponse)
    (h : Host) : Prop where
  /-- Each was answered. -/
  responses : r.2.length = asked.length
  /-- With success. -/
  status : ∀ response ∈ r.2, response.status = 200
  /-- The addresses are gone, and nothing else. -/
  lookup : ∀ key ip, r.1.installedRoutes.lookup key ip =
    if ∃ t ∈ asked, utf8 t.target.ip = ip then none else m₀.installedRoutes.lookup key ip
  /-- Index and system route table agree. -/
  coherent : CoherentState r.1.installedRoutes h

namespace Emptying

variable {m₀ : Memory} {asked : List (Tagged Target)} {r r' : Memory × List HttpResponse}
  {h' : Host} {es : List HostEvent}

/-- One more request, for an address that was not asked for. -/
theorem step (hs : Emptying m₀ asked r h) (hquad : Canonical) (hplain : m₀.installedRoutes.Plain)
    (hdecode : Faithful decode m₀.installedRoutes) (ht : Shown decode m₀.installedRoutes t)
    (hnew : ∀ t' ∈ asked, utf8 t'.target.ip ≠ utf8 t.target.ip)
    (hrun : Exec Host.Answers (deleteOne r t) h es r' h') (hall : ∀ e ∈ es, fulfilled e = true) :
    Emptying m₀ (asked ++ [t]) r' h' := by
  obtain ⟨⟨m', response⟩, h₁, es₁, es₂, rfl, hserve, hret⟩ := exec_do_iff.mp hrun
  obtain ⟨rfl, rfl, rfl⟩ := exec_pure_iff.mp hret
  obtain ⟨key, hthere, hkey, hip⟩ := ht.sent hquad hplain hdecode
  have hasked : ¬ ∃ t' ∈ asked, utf8 t'.target.ip = utf8 t.target.ip :=
    fun ⟨t', ht', heq⟩ => hnew t' ht' heq
  have hstill : r.1.installedRoutes.lookup key (utf8 t.target.ip) ≠ none := by
    rw [hs.lookup, if_neg hasked]
    exact hthere
  have hplain' : r.1.installedRoutes.Plain := by
    intro key ip metadata hl
    rw [hs.lookup] at hl
    split_ifs at hl
    exact hplain _ _ _ hl
  have hone := emptied_of_run hquad hs.coherent hplain' hstill hkey hip hserve
    fun e he => hall e (List.mem_append_left _ he)
  refine ⟨?_, ?_, ?_, hone.coherent⟩
  · rw [List.length_append, List.length_append, hs.responses]
    rfl
  · intro response' hresponse
    rcases List.mem_append.mp hresponse with hresponse | hresponse
    · exact hs.status response' hresponse
    · exact List.mem_singleton.mp hresponse ▸ hone.status
  · intro key ip
    rw [hone.lookup, hs.lookup]
    by_cases hip : ip = utf8 t.target.ip
    · rw [if_pos hip, if_pos ⟨t, by simp, hip.symm⟩]
    · rw [if_neg hip]
      refine if_congr ?_ rfl rfl
      simp [or_and_right, exists_or, Ne.symm hip]

end Emptying

/-- No address is asked for twice. -/
theorem pairwise_uniqueTargets {m₀ : Memory} {selected : List (RouteGroup Target)}
    (hquad : Canonical) (hplain : m₀.installedRoutes.Plain)
    (hdecode : Faithful decode m₀.installedRoutes) (hagree : m₀.installedRoutes.refs.Agree)
    (hshown : ∀ t ∈ uniqueTargets selected, Shown decode m₀.installedRoutes t) :
    (uniqueTargets selected).Pairwise fun t t' => utf8 t.target.ip ≠ utf8 t'.target.ip := by
  have hidentity : (uniqueTargets selected).Pairwise fun t t' => identity t ≠ identity t' :=
    List.pairwise_map.mp (Firsts.nodup _)
  refine hidentity.imp_of_mem fun {t t'} ht ht' hne heq => hne ?_
  exact (identity_eq_iff hquad hplain hdecode hagree (hshown t ht) (hshown t' ht')).mpr heq

/-- **Deleting groups empties them**: every request is answered with success, the addresses of the
groups are gone from all keys, and nothing else is. -/
theorem group_delete [Browser] (hlower : Browser.Documented) (hquad : Canonical)
    {m m' : Memory} {h h' : Host} (hm : CoherentState m.installedRoutes h)
    (hplain : m.installedRoutes.Plain) (hdecode : Faithful decode m.installedRoutes)
    {items : List Units} {selected : List (RouteGroup Target)}
    (hselected : ∀ g ∈ selected,
      g ∈ renderRoutes items (sourceGroups decode (list m.installedRoutes)))
    {es : List HostEvent} {responses : List HttpResponse}
    (hrun : Exec Host.Answers (deleteGroups selected m) h es (m', responses) h')
    (hall : ∀ e ∈ es, fulfilled e = true) :
    (responses.length = (uniqueTargets selected).length ∧
      ∀ response ∈ responses, response.status = 200) ∧
    (∀ g ∈ selected, ∀ t ∈ g.targets, ∀ key,
      m'.installedRoutes.lookup key (utf8 t.target.ip) = none) ∧
    ∀ key ip, (∀ g ∈ selected, ∀ t ∈ g.targets, utf8 t.target.ip ≠ ip) →
      m'.installedRoutes.lookup key ip = m.installedRoutes.lookup key ip := by
  have hshown : ∀ g ∈ selected, ∀ t ∈ g.targets, Shown decode m.installedRoutes t :=
    fun g hg t ht => shown_of_mem hlower (hselected g hg) ht
  have hfrom : ∀ t ∈ uniqueTargets selected, ∃ g ∈ selected, t ∈ g.targets := fun t ht =>
    List.mem_flatMap.mp ((Firsts.mem_items_foldl ht).resolve_left List.not_mem_nil)
  have hunique : ∀ t ∈ uniqueTargets selected, Shown decode m.installedRoutes t := fun t ht => by
    obtain ⟨g, hg, htg⟩ := hfrom t ht
    exact hshown g hg t htg
  have hpairwise := pairwise_uniqueTargets hquad hplain hdecode hm.1.agree hunique
  have hs : (∀ e ∈ es, fulfilled e = true) →
      Emptying m (uniqueTargets selected) (m', responses) h' := by
    refine exec_loop_inv (fun asked es r h => (∀ e ∈ es, fulfilled e = true) →
      Emptying m asked r h) ?_ ?_ hrun
    · intro asked t rest es r h es' r' h' hsplit hs hstep hall
      have hmem : t ∈ uniqueTargets selected := by
        rw [hsplit]
        simp
      have hnew : ∀ t' ∈ asked, utf8 t'.target.ip ≠ utf8 t.target.ip := fun t' ht' => by
        rw [hsplit] at hpairwise
        exact (List.pairwise_append.mp hpairwise).2.2 t' ht' t List.mem_cons_self
      exact (hs fun e he => hall e (List.mem_append_left _ he)).step hquad hplain hdecode
        (hunique t hmem) hnew hstep
        fun e he => hall e (List.mem_append_right _ he)
    · exact fun _ => ⟨rfl, by simp, by simp, hm⟩
  have hdone := hs hall
  refine ⟨⟨hdone.responses, hdone.status⟩, fun g hg t ht key => ?_, fun key ip hip => ?_⟩
  · -- the target that was kept has the same address
    obtain ⟨t', ht', heq⟩ := (Firsts.exists_mem_items (List.mem_flatMap.mpr ⟨g, hg, ht⟩) :
      ∃ t' ∈ uniqueTargets selected, identity t' = identity t)
    have hsame :=
      (identity_eq_iff hquad hplain hdecode hm.1.agree (hunique t' ht') (hshown g hg t ht)).mp heq
    rw [hdone.lookup, if_pos ⟨t', ht', hsame⟩]
  · rw [hdone.lookup, if_neg]
    rintro ⟨t, ht, heq⟩
    obtain ⟨g, hg, htg⟩ := hfrom t ht
    exact hip g hg t htg heq

section Sample

omit [Platform]

theorem plain_sharedMemory : @Routes.Plain quadPlatform sharedMemory.installedRoutes := by
  let _ := quadPlatform
  refine Routes.plain_set
    (Routes.plain_set (Routes.plain_set Routes.Sound.empty.plain ?_) ?_) ?_ <;>
    exact ⟨by decide +kernel, by decide +kernel, by decide +kernel⟩

theorem faithful_sharedMemory : Faithful units sharedMemory.installedRoutes := by
  refine ⟨fun _ _ => rfl, fun key ip hthere => ?_⟩
  obtain ⟨metadata, hl⟩ := Option.ne_none_iff_exists'.mp hthere
  simp only [Routes.lookup_set] at hl
  split_ifs at hl with h₁ h₂ h₃
  · rw [h₁.1]; decide
  · rw [h₂.1]; decide
  · rw [h₃.1]; decide
  · cases hl

/-- One of two groups that share an address. -/
theorem group_delete_shared :
    ∃ (m' : Memory) (h' : Host) (es : List HostEvent) (responses : List HttpResponse)
      (selected : List (RouteGroup Target)),
      Exec Host.Answers (@deleteGroups quadPlatform selected sharedMemory) sharedHost es
        (m', responses) h' ∧
      selected.length = 1 ∧ responses.map HttpResponse.status = [200] ∧
      m'.installedRoutes.lookup (text "b") (text "10.0.0.1") = none ∧
      (m'.installedRoutes.lookup (text "b") (text "10.0.0.2")).isSome = true := by
  let _ := quadPlatform
  let _ := asciiBrowser
  let groups := renderRoutes [] (sourceGroups units (list sharedMemory.installedRoutes))
  let selected := groups.filter fun g => g.key = units (text "a")
  have hrun := exec_play Host.answers_answer {} (deleteGroups selected sharedMemory) [] sharedHost
  have hall : ∀ e ∈ ((deleteGroups selected sharedMemory).play Host.answer {} [] sharedHost).1,
      fulfilled e = true := by
    decide +kernel
  have hone : (uniqueTargets selected).length = 1 := by decide +kernel
  generalize (deleteGroups selected sharedMemory).play Host.answer {} [] sharedHost =
    out at hrun hall
  obtain ⟨es, ⟨m', responses⟩, h'⟩ := out
  obtain ⟨⟨hlength, hstatus⟩, hgone, hkept⟩ := group_delete asciiBrowser_documented
    (fun _ => rfl) coherent_shared
    plain_sharedMemory faithful_sharedMemory (fun g hg => (List.mem_filter.mp hg).1) hrun hall
  have htargets : ∀ g ∈ selected, ∀ t ∈ g.targets, utf8 t.target.ip = text "10.0.0.1" := by
    decide +kernel
  refine ⟨m', h', es, responses, selected, hrun, by decide +kernel, ?_, ?_, ?_⟩
  · obtain ⟨response, rfl⟩ := List.length_eq_one_iff.mp (hlength.trans hone)
    rw [List.map_singleton, hstatus response List.mem_cons_self]
  · have hfirst : ∃ g ∈ selected, ∃ t ∈ g.targets, utf8 t.target.ip = text "10.0.0.1" := by
      decide +kernel
    obtain ⟨g, hg, t, ht, hip⟩ := hfirst
    exact hip ▸ hgone g hg t ht (text "b")
  · rw [hkept _ _ fun g hg t ht => by rw [htargets g hg t ht]; decide]
    decide

end Sample

end IpRouter.Console
