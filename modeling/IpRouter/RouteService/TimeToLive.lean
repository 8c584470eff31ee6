import IpRouter.RouteManager.Adding
import IpRouter.RouteManager.MachineTimes
import IpRouter.RouteManager.Sweeping
import IpRouter.RouteService.SequentialAdd

/-!
# From the text of a time to live to the expiry

A time to live goes a long way: `parse_ttl` reads a text, `add` makes a point of
time of it, `save_routes_locked` prints both, `parse_saved_number` reads them back,
and `expire_routes` compares. `Says` is what a text means, and `Exact` what the
reference that is stored has to do with it. A request either stores such a
reference or is refused, and it is refused only for a text that means no 64-bit
integer or a time that is too late for the clock (`ttl_exact`).
-/

namespace IpRouter.RouteService

open Theory RouteManager

/-! ### The text -/

/-- What the text of a time to live says: nothing, or an integer, in decimal and in full. -/
def Says (value : Option Bytes) (v : ℤ) : Prop :=
  (given value = false ∧ v = 0) ∨ ∃ digits, value = some digits ∧ Denotes digits v ∧ Fits v

theorem not_denotes_nil (v : ℤ) : ¬ Denotes [] v := by
  rintro ⟨spaces, run, -, hrun, -, hs⟩
  rcases hs with ⟨hs, -⟩ | ⟨hs, -⟩ | ⟨hs, -⟩
  · exact hrun (List.append_eq_nil_iff.mp hs.symm).2
  · cases (List.append_eq_nil_iff.mp hs.symm).2
  · cases (List.append_eq_nil_iff.mp hs.symm).2

/-- A text says one thing. -/
theorem Says.unique {value : Option Bytes} {v w : ℤ} (hv : Says value v)
    (hw : Says value w) : v = w := by
  rcases hv with ⟨hnone, rfl⟩ | ⟨digits, rfl, hdenotes, hfits⟩
  · rcases hw with ⟨-, rfl⟩ | ⟨digits, rfl, hdenotes, -⟩
    · rfl
    · have hnil : digits = [] := by simpa [given] using hnone
      exact absurd (hnil ▸ hdenotes) (not_denotes_nil w)
  · rcases hw with ⟨hnone, -⟩ | ⟨digits', heq, hdenotes', -⟩
    · have hnil : digits = [] := by simpa [given] using hnone
      exact absurd (hnil ▸ hdenotes) (not_denotes_nil v)
    · obtain rfl := Option.some.inj heq
      exact hdenotes.unique hdenotes' hfits

/-- **`parse_ttl` understands what a text says**, and takes a negative time for none. -/
theorem parseTtl_iff {request : HttpRequest} {ttl : ℤ} :
    parseTtl request = .ok ttl ↔ ∃ v, Says (request.getParameter (text "ttl")) v ∧
      ttl = if 0 < v then v else 0 := by
  unfold parseTtl
  cases hvalue : request.getParameter (text "ttl") with
  | none =>
    constructor
    · intro h
      exact ⟨0, Or.inl ⟨rfl, rfl⟩, (Except.ok.inj h).symm⟩
    · rintro ⟨v, hsays, rfl⟩
      obtain rfl := hsays.unique (Or.inl ⟨rfl, rfl⟩)
      rfl
  | some value =>
    by_cases hnil : value = []
    · subst hnil
      constructor
      · intro h
        exact ⟨0, Or.inl ⟨rfl, rfl⟩, (Except.ok.inj h).symm⟩
      · rintro ⟨v, hsays, rfl⟩
        obtain rfl := hsays.unique (Or.inl ⟨rfl, rfl⟩)
        rfl
    · simp only [if_neg hnil]
      constructor
      · intro h
        by_cases hbad : ¬ (strtoll value).inRange = true ∨ ¬ (strtoll value).parsed = true ∨
          (strtoll value).rest ≠ []
        · rw [if_pos hbad] at h
          cases h
        rw [if_neg hbad] at h
        simp only [not_or, not_not] at hbad
        obtain ⟨hrange, hparsed, hrest⟩ := hbad
        obtain ⟨v, hdenotes⟩ := denotes_of_strtoll hparsed hrest
        have hread := strtoll_of_denotes hdenotes
        have hfits : Fits v := by simpa [hread, Fits] using hrange
        have hclamped : (strtoll value).value = v := by
          rw [hread, min_eq_right hfits.2, max_eq_right hfits.1]
        rw [hclamped] at h
        exact ⟨v, Or.inr ⟨value, rfl, hdenotes, hfits⟩, (Except.ok.inj h).symm⟩
      · rintro ⟨v, hsays, rfl⟩
        rcases hsays with ⟨hnone, -⟩ | ⟨digits, heq, hdenotes, hfits⟩
        · exact absurd (by simpa [given] using hnone) hnil
        · obtain rfl := Option.some.inj heq
          have hread := strtoll_of_denotes hdenotes
          rw [min_eq_right hfits.2, max_eq_right hfits.1] at hread
          simp [hread, hfits.1, hfits.2]

/-! ### What is stored -/

/-- **A reference that has exactly the time to live `v` from `now` on**, and keeps it: in memory, in
the database, and under the eyes of the worker. -/
structure Exact (now v : ℤ) (entry : RouteMetadata) : Prop where
  /-- The sum is a time. -/
  fits : 0 < v → now + v ≤ int64Max
  /-- The time to live, `0` for a permanent route. -/
  ttl : entry.ttl = if 0 < v then v else 0
  /-- The expiry, `0` for a permanent route. -/
  expiresAt : entry.expiresAt = if 0 < v then now + v else 0
  /-- The worker has not tried yet. -/
  lastAttempt : entry.lastAttempt = 0
  /-- On 64-bit integers `add` accepts the time to live and computes the same expiry. -/
  computed : tooLarge64 (Int64.ofInt now) (Int64.ofInt entry.ttl) = false ∧
    (expiration64 (Int64.ofInt now) (Int64.ofInt entry.ttl)).toInt = entry.expiresAt
  /-- What is printed is read back. -/
  saved : parseSavedNumber (decimal entry.ttl) = some entry.ttl ∧
    parseSavedNumber (decimal entry.expiresAt) = some entry.expiresAt
  /-- Whenever the worker looks, and whenever it has tried last, its test does not overflow. -/
  tested : ∀ now' last, ClockTime now' → ClockTime last → Fits (now' - last) ∧
    keep64 (Int64.ofInt entry.expiresAt) (Int64.ofInt last) (Int64.ofInt now') =
      ({ entry with lastAttempt := last } : RouteMetadata).keep now'
  /-- The reference has expired when the time has passed, and not before. -/
  expires : ∀ now', ¬ entry.Live now' ↔ 0 < v ∧ now + v ≤ now'
  /-- Then it is due, unless the worker has tried less than 30 seconds ago. -/
  due : ∀ now' last, ({ entry with lastAttempt := last } : RouteMetadata).keep now' = false ↔
    (0 < v ∧ now + v ≤ now') ∧ ¬ (0 < last ∧ now' - last < 30)

/-- What `add` stores is exact. -/
theorem exact_newTarget {now v : ℤ} (hnow : ClockTime now) (hv : Fits v)
    (hfits : 0 < v → now + v ≤ int64Max) (gateway : Bytes) :
    Exact now v (newTarget gateway now (if 0 < v then v else 0)) := by
  obtain ⟨hnow₀, hnow₁⟩ := id hnow
  have httl : (newTarget gateway now (if 0 < v then v else 0)).ttl = if 0 < v then v else 0 := by
    simp only [newTarget]
    split_ifs <;> omega
  have hexpires : (newTarget gateway now (if 0 < v then v else 0)).expiresAt =
      if 0 < v then now + v else 0 := by
    simp only [newTarget, expiration]
    split_ifs <;> omega
  have httl₁ : ClockTime (if 0 < v then v else 0) := by
    split_ifs with hpos
    · exact ⟨hpos.le, hv.2⟩
    · exact ⟨le_rfl, by decide⟩
  have hexpires₁ : ClockTime (if 0 < v then now + v else 0) := by
    split_ifs with hpos
    · exact ⟨by omega, hfits hpos⟩
    · exact ⟨le_rfl, by decide⟩
  have hroom : 0 < (if 0 < v then v else 0) → (if 0 < v then v else 0) ≤ int64Max - now := by
    split_ifs with hpos
    · have := hfits hpos
      omega
    · omega
  have hdue : ∀ now' last,
      ({ newTarget gateway now (if 0 < v then v else 0) with lastAttempt := last } :
      RouteMetadata).keep now' = false ↔ (0 < v ∧ now + v ≤ now') ∧
          ¬ (0 < last ∧ now' - last < 30) := by
    intro now' last
    simp only [RouteMetadata.keep, hexpires, decide_eq_false_iff_not, not_or]
    split_ifs with hpos <;> omega
  refine ⟨hfits, httl, hexpires, rfl, ?_, ?_, ?_, ?_, hdue⟩
  · rw [httl, hexpires, tooLarge64_eq hnow httl₁.fits, expiration64_eq hnow httl₁.fits hroom]
    refine ⟨decide_eq_false fun h => ?_, ?_⟩
    · have := hroom h.1
      omega
    · exact hexpires
  · rw [httl, hexpires]
    exact ⟨parseSavedNumber_decimal httl₁, parseSavedNumber_decimal hexpires₁⟩
  · intro now' last hnow' hlast
    refine ⟨hnow'.fits_sub hlast, ?_⟩
    exact keep64_eq
      { newTarget gateway now (if 0 < v then v else 0) with lastAttempt := last } hnow'
      (hexpires ▸ hexpires₁.fits) hlast
  · intro now'
    simp only [RouteMetadata.Live, hexpires, not_or]
    split_ifs with hpos <;> omega

/-- Every reference has its line in the database. -/
theorem line_of_lookup {m : Routes} {key ip : Bytes} {metadata : RouteMetadata}
    (hl : m.lookup key ip = some metadata) :
    ∃ before after, encodeRoutes m = before ++ encodeTarget key ip metadata ++ after := by
  have hmem : savedRoute key ip metadata ∈ m.savedRoutes :=
    Routes.mem_savedRoutes_iff.mpr ⟨metadata, hl, rfl⟩
  obtain ⟨first, last, hsplit⟩ := List.append_of_mem hmem
  refine ⟨routesHeader ++ 10 :: first.flatMap fun it => it.line ++ [10],
    last.flatMap fun it => it.line ++ [10], ?_⟩
  rw [Routes.encodeRoutes_eq, hsplit, List.flatMap_append, List.flatMap_cons]
  simp [encodeTarget, savedRoute, SavedRoute.line]

/-! ### The request -/

variable [Platform]

/-- An addition when saves and kernel calls succeed and no key is in the way: it comes too late for
the clock, or the reference is stored and saved. -/
theorem add_of_calm {s s' : Service} {ip gateway key : Bytes} {now ttl : ℤ} {es : List HostEvent}
    {r : Except Bytes Unit} (hstep : OpStep (Env.calm now) s ⟨.add ip gateway key ttl, es, r⟩ s')
    (hfree : ∀ group other, s.routes.refs group ip = some other → other = gateway) :
    (0 < ttl ∧ int64Max - now < ttl ∧ (∃ e, r = .error e) ∧ s'.memory = s.memory ∧
        s'.host = { s.host with clock := now }) ∨
      ((0 < ttl → ttl ≤ int64Max - now) ∧ r = .ok () ∧
        s'.memory =
          { s.memory with installedRoutes := s.routes.set key ip (newTarget gateway now ttl) } ∧
        s'.host.routesFile = some (encodeRoutes s'.routes)) := by
  obtain ⟨hany, htime, hok⟩ := hstep.of_calm
  obtain ⟨hadd, hmemory⟩ := opStep_add.mp hstep
  obtain ⟨reading, h₁, es', rfl, ⟨hh, hreads⟩, ⟨hpos, hlate, rfl, rfl, hr⟩ | ⟨hfits, -⟩⟩ :=
    exec_add hadd
  all_goals obtain rfl : reading = now := by simpa [calm, readsAs] using hreads
  · obtain ⟨hroutes, rfl⟩ := Prod.mk.inj hr
    exact Or.inl ⟨hpos, hlate, ⟨_, rfl⟩, by rw [hmemory, hroutes], hh⟩
  · right
    cases added_of_succeeds hany htime hfits hok with
    | vetoed own used ne => exact absurd (hfree _ _ used) ne
    | shared used routes file kernel => exact ⟨hfits, rfl, by rw [hmemory, routes], file⟩
    | installed free routes file kernel => exact ⟨hfits, rfl, by rw [hmemory, routes], file⟩

variable [Acl] {request : HttpRequest} {m m' : Memory} {gateway key ip : Bytes} {applied : Bool}
  {now : ℤ} {h h' : Host} {es : List HostEvent} {response : HttpResponse}

/-- **A time to live is kept exactly**, whatever its text and whatever the clock reads, when
saves and kernel calls succeed and no key reaches the address through another gateway: the
request stores a reference that has it, or it is refused, and that only when the text says
nothing or the clock has no such time. -/
theorem ttl_exact (hnow : ClockTime now) (hips : given (request.getParameter (text "ips")) = false)
    (hdestination : parameter request (text "ip") (text "target") = some ip)
    (hip : validIpv4 (some ip) = true)
    (hgateway : resolvedGateway m request = .ok (gateway, applied))
    (hkey : checkKey request = .ok key)
    (hfree : ∀ group other, m.installedRoutes.refs group ip = some other → other = gateway)
    (hrun : Exec (restrict Host.Answers (calm now)) (serve (routeAdd request) m) h es
      (m', response) h') :
    (response.status ≠ 200 ∧ m' = m ∧ h'.routesFile = h.routesFile ∧ h'.kernel = h.kernel ∧
        ∀ v, Says (request.getParameter (text "ttl")) v → 0 < v ∧ int64Max < now + v) ∨
      (response.status = 200 ∧ ∃ v entry, Says (request.getParameter (text "ttl")) v ∧
        Exact now v entry ∧
        entry.gateway = gateway ∧
        m' = { m with installedRoutes := m.installedRoutes.set key ip entry } ∧
        ∃ before after, h'.routesFile = some (before ++ encodeTarget key ip entry ++ after)) := by
  simp only [routeAdd, hips, Bool.false_eq_true, not_false_eq_true, if_true] at hrun
  rw [serve_changeRoute hdestination hip hgateway hkey] at hrun
  cases httl : parseTtl request with
  | error e =>
    rw [httl] at hrun
    obtain ⟨rfl, heq, rfl⟩ := exec_pure_iff.mp hrun
    obtain ⟨rfl, rfl⟩ := Prod.mk.inj heq
    refine Or.inl ⟨(by decide : (400 : ℕ) ≠ 200), rfl, rfl, rfl, fun v hsays => ?_⟩
    rw [parseTtl_iff.mpr ⟨v, hsays, rfl⟩] at httl
    cases httl
  | ok ttl =>
    obtain ⟨v, hsays, hv⟩ := parseTtl_iff.mp httl
    rw [httl] at hrun
    obtain ⟨⟨m₁, r⟩, h₁, es₁, es₂, rfl, hadd, hret⟩ := exec_do_iff.mp hrun
    obtain ⟨rfl, heq, rfl⟩ := exec_pure_iff.mp hret
    obtain ⟨rfl, rfl⟩ := Prod.mk.inj heq
    have hstep : OpStep (Env.calm now) ⟨h, m⟩ ⟨.add ip gateway key ttl, es₁, r⟩ ⟨h', m'⟩ := hadd
    rcases add_of_calm hstep hfree with ⟨hpos, hlate, ⟨e, rfl⟩, hm, hh⟩ | ⟨hfits, rfl, hm, hfile⟩
    · obtain rfl : m' = m := hm
      obtain rfl : h' = { h with clock := now } := hh
      refine Or.inl ⟨(by decide : (500 : ℕ) ≠ 200), rfl, rfl, rfl, fun w hw => ?_⟩
      obtain rfl := hsays.unique hw
      split_ifs at hv with hv₀
      · exact ⟨hv₀, by omega⟩
      · omega
    · obtain rfl : m' =
          { m with installedRoutes := m.installedRoutes.set key ip (newTarget gateway now ttl) } :=
        hm
      have hexact : Exact now v (newTarget gateway now ttl) := by
        rw [hv]
        refine exact_newTarget hnow ?_ (fun hpos => ?_) gateway
        · rcases hsays with ⟨-, rfl⟩ | ⟨digits, -, -, hv⟩
          · exact ⟨by decide, by decide⟩
          · exact hv
        · rw [if_pos hpos] at hv
          have := hfits (hv ▸ hpos)
          omega
      have hstored : (m.installedRoutes.set key ip (newTarget gateway now ttl)).lookup key ip =
          some (newTarget gateway now ttl) := by rw [Routes.lookup_set, if_pos ⟨rfl, rfl⟩]
      obtain ⟨before, after, hline⟩ := line_of_lookup hstored
      exact Or.inr ⟨rfl, v, _, hsays, hexact, rfl, rfl, before, after,
        hfile.trans (congrArg some hline)⟩

section Sample

omit [Platform] [Acl]

/-- The latest time there is: a route that lives until the clock ends. -/
theorem ttl_exact_latest : ∃ (request : HttpRequest) (m m' : Memory) (h h' : Host)
    (es : List HostEvent) (response : HttpResponse) (v : ℤ) (entry : RouteMetadata),
    Exec (restrict Host.Answers (calm 100))
      (@serve quadPlatform _ (@routeAdd quadPlatform documentedAcl request) m) h es
        (m', response) h' ∧
      request.getParameter (text "ttl") = some (text " +9223372036854775707") ∧
      Says (some (text " +9223372036854775707")) v ∧ Exact 100 v entry ∧
      m'.installedRoutes.lookup (text "a") (text "10.0.0.1") = some entry := by
  let _ := quadPlatform
  let _ := documentedAcl
  let request : HttpRequest := ⟨fun name =>
    if name = text "ip" then some (text "10.0.0.1") else if name = text "gateway" then
      some (text "10.0.0.254")
    else if name = text "key" then some (text "a")
    else if name = text "ttl" then some (text " +9223372036854775707") else none⟩
  let m : Memory := ⟨OrdMap.empty, [], false⟩
  let h : Host := ⟨none, none, fun _ => none, 0⟩
  have hrun := exec_play Host.answers_answer {} (serve (routeAdd request) m) [{ now := 100 }] h
  have hcalm : ∀ e ∈ ((serve (routeAdd request) m).play Host.answer {} [{ now := 100 }] h).1,
      calm 100 e.1 e.2 = true := by
    decide +kernel
  have hstatus :
      ((serve (routeAdd request) m).play Host.answer {} [{ now := 100 }] h).2.1.2.status = 200 := by
    decide +kernel
  generalize (serve (routeAdd request) m).play Host.answer {} [{ now := 100 }] h =
    out at hrun hcalm hstatus
  obtain ⟨es, ⟨m', response⟩, h'⟩ := out
  have hrun : Exec (restrict Host.Answers (calm 100)) (serve (routeAdd request) m) h es
      (m', response) h' :=
    exec_restrict_iff.mpr ⟨hrun, hcalm⟩
  have httl : request.getParameter (text "ttl") = some (text " +9223372036854775707") := by
    decide +kernel
  have hdestination : parameter request (text "ip") (text "target") = some (text "10.0.0.1") := by
    decide +kernel
  have hgateway : resolvedGateway m request = .ok (text "10.0.0.254", false) := by decide +kernel
  have hkey : checkKey request = .ok (text "a") := by decide +kernel
  have hfree : ∀ group other, m.installedRoutes.refs group (text "10.0.0.1") = some other →
      other = text "10.0.0.254" := by
    intro group other hused
    cases hused
  rcases ttl_exact ⟨by decide, by decide⟩ (by decide +kernel) hdestination
      (by decide +kernel) hgateway hkey hfree hrun with
    ⟨hrefused, -⟩ | ⟨-, v, entry, hsays, hexact, -, hm, -⟩
  · exact absurd hstatus hrefused
  · refine ⟨request, m, m', h, h', es, response, v, entry, hrun, httl, httl ▸ hsays, hexact, ?_⟩
    rw [hm, Routes.lookup_set, if_pos ⟨rfl, rfl⟩]

end Sample

end IpRouter.RouteService
