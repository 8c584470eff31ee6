import IpRouter.RouteManager.Basic

/-!
# The files the route manager keeps

`save_routes_locked` and `load_routes_locked` for the route database, a header
line followed by one line of five tab-separated fields for each reference, and
`save_global_route_locked` and `load_global_route_locked` for the global route
settings.

The loader works on raw `std::string` fields, which may hold NUL bytes; what it
validates, what it passes to the system, and what it puts into the index are the
C strings at their start (`cString`).

`load_routes_locked` makes one pass over the records that restores routes
(`restoreRecord`), then deletes the system routes of expired records whose target
was not restored (`deleteExpired`), and at the end rewrites the database unless a
route could not be restored.
-/

namespace IpRouter.RouteManager

open Theory

/-! ### Saving -/

/-- The first line of the route database. -/
def routesHeader : Bytes := text "# ip-router routes v1"

/-- The first line of the global route settings. -/
def globalHeader : Bytes := text "# ip-router global route v1"

/-- The line written for one reference. -/
def encodeTarget (key ip : Bytes) (metadata : RouteMetadata) : Bytes :=
  key ++ 9 :: (ip ++ 9 ::
    (metadata.gateway ++ 9 :: (decimal metadata.ttl ++ 9 :: (decimal metadata.expiresAt ++ [10]))))

/-- What `save_routes_locked` writes. -/
def encodeRoutes (installed : Routes) : Bytes :=
  routesHeader ++ 10 :: installed.entries.flatMap fun group =>
    group.2.entries.flatMap fun target => encodeTarget group.1 target.1 target.2

/-- How a replaced file is reported: the texts of the three ways to fail. -/
def replaceResult [Platform] (opened written renamed : String) : Option Fault → Except Bytes Unit
  | none => .ok ()
  | some (.openFailed code) => .error (setError opened code)
  | some .writeFailed => .error (text written)
  | some (.renameFailed code) => .error (setError renamed code)

theorem replaceResult_eq_ok [Platform] {opened written renamed : String}
    {fault : Option Fault} {u : Unit} :
    replaceResult opened written renamed fault = .ok u ↔ fault = none := by
  rcases fault with _ | (_ | _ | _) <;> simp [replaceResult]

/-- How `save_routes_locked` reports. -/
def routesSaved [Platform] : Option Fault → Except Bytes Unit :=
  replaceResult "open temporary route database" "write temporary route database failed"
    "replace route database"

/-- `save_routes_locked`. -/
def saveRoutesLocked [Platform] (installed : Routes) : HostProg (Except Bytes Unit) := do
  let fault ← replaceRoutes (encodeRoutes installed)
  return routesSaved fault

/-- What `save_global_route_locked` writes. -/
def encodeGlobal (gateway : Bytes) (force : Bool) : Bytes :=
  globalHeader ++ 10 :: if gateway = [] then
    [] else gateway ++ 9 :: ((if force then 49 else 48) :: [10])

/-- `save_global_route_locked`. -/
def saveGlobalRouteLocked [Platform] (gateway : Bytes) (force : Bool) :
    HostProg (Except Bytes Unit) := do
  let fault ← replaceGlobal (encodeGlobal gateway force)
  return replaceResult "open temporary global route settings"
    "write temporary global route settings failed"
    "replace global route settings" fault

/-! ### Reading the route database -/

/-- `saved_route`. -/
structure SavedRoute where
  /-- The key. -/
  key : Bytes
  /-- The target. -/
  ip : Bytes
  /-- The next hop. -/
  gateway : Bytes
  /-- The configured time to live. -/
  ttl : ℤ
  /-- When the route expires. -/
  expiresAt : ℤ
  deriving DecidableEq

/-- `valid_saved_key`. -/
def validSavedKey (key : Bytes) : Bool :=
  key ≠ [] && key.length ≤ 256 && key.all fun ch => !(ch < 0x20 || ch = 0x7f)

/-- `parse_saved_number`. -/
def parseSavedNumber (value : Bytes) : Option ℤ :=
  let result := strtoll (cString value)
  if result.inRange ∧ result.parsed ∧ result.rest = [] then some result.value else none

/-- The record a line of the database holds, if it is valid. -/
def parseRecord [Platform] (line : Bytes) : Option SavedRoute :=
  match line.splitOn 9 with
  | [key, ip, gateway, ttl, expiresAt] =>
    match parseSavedNumber ttl, parseSavedNumber expiresAt with
    | some ttl, some expiresAt =>
      if validSavedKey key ∧ validIpv4 (cString ip) ∧ validIpv4 (cString gateway) ∧ 0 ≤ ttl ∧
          0 ≤ expiresAt then
        some ⟨key, ip, gateway, ttl, expiresAt⟩
      else none
    | _, _ => none
  | _ => none

/-- The valid records of the database, in order: the header and the empty lines are passed
over, invalid lines ignored. -/
def parseRoutes [Platform] (content : Bytes) : List SavedRoute :=
  let lines := getlines content
  let records := if lines.head? = some routesHeader then lines.tail else lines
  records.filterMap fun line => if line = [] then none else parseRecord line

/-! ### Restoring routes -/

/-- What the loader knows while it passes over the records. -/
structure Restore where
  /-- `installed_routes`. -/
  installed : Routes
  /-- `active_system_routes`: the targets restored so far, with their gateways. -/
  active : OrdMap Bytes Bytes
  /-- `expired_system_routes`: target and gateway of expired records, as `ip\ngateway`. -/
  expired : OrdMap Bytes Unit
  /-- `restore_failed`. -/
  restoreFailed : Bool

/-- `route_id`. -/
def routeId (ip gateway : Bytes) : Bytes := ip ++ 10 :: gateway

theorem takeWhile_routeId {ip : Bytes} (hip : 10 ∉ ip) (gateway : Bytes) :
    (routeId ip gateway).takeWhile (· ≠ 10) = ip := by
  rw [routeId, List.takeWhile_append_of_pos fun b hb => by
    simpa using fun hb' : b = 10 => hip (hb' ▸ hb)]
  simp

theorem dropWhile_routeId {ip : Bytes} (hip : 10 ∉ ip) (gateway : Bytes) :
    ((routeId ip gateway).dropWhile (· ≠ 10)).tail = gateway := by
  rw [routeId, List.dropWhile_append_of_pos fun b hb => by
    simpa using fun hb' : b = 10 => hip (hb' ▸ hb)]
  simp

/-- An identifier with a newline at the end of its target says what it is about. -/
theorem routeId_inj {ip ip' gateway gateway' : Bytes} (hip : 10 ∉ ip) (hip' : 10 ∉ ip')
    (h : routeId ip gateway = routeId ip' gateway') : ip = ip' ∧ gateway = gateway' := by
  have htarget := takeWhile_routeId hip gateway
  have hvia := dropWhile_routeId hip gateway
  rw [h, takeWhile_routeId hip'] at htarget
  rw [h, dropWhile_routeId hip'] at hvia
  exact ⟨htarget.symm, hvia.symm⟩

/-- `it->expires_at > 0 && it->expires_at <= now`. -/
def SavedRoute.expired (it : SavedRoute) (now : ℤ) : Bool := 0 < it.expiresAt ∧ it.expiresAt ≤ now

theorem SavedRoute.expired_eq_false {it : SavedRoute} {now : ℤ} :
    it.expired now = false ↔ ¬ (0 < it.expiresAt ∧ it.expiresAt ≤ now) := decide_eq_false_iff_not

/-- The reference a record puts into the index. -/
def Restore.install (s : Restore) (it : SavedRoute) : Routes :=
  s.installed.set (cString it.key) (cString it.ip) ⟨cString it.gateway, it.ttl, it.expiresAt, 0⟩

/-- The first pass of `load_routes_locked`, at one record. -/
def restoreRecord (now : ℤ) (s : Restore) (it : SavedRoute) : HostProg Restore :=
  if it.expired now then
    return { s with expired := s.expired.insert (routeId it.ip it.gateway) () }
  else
    match s.active.find it.ip with
    | some gateway =>
      if gateway ≠ it.gateway then return s else return { s with installed := s.install it }
    | none => do
      match ← addSystemRoute (cString it.ip) (cString it.gateway) with
      | .error _ => return { s with restoreFailed := true }
      | .ok _ =>
        return { s with active := s.active.insert it.ip it.gateway, installed := s.install it }

/-- The second pass of `load_routes_locked`, at one expired route. -/
def deleteExpired (active : OrdMap Bytes Bytes) (_ : Unit) (id : Bytes) : HostProg Unit :=
  let destination := id.takeWhile (· ≠ 10)
  let gateway := (id.dropWhile (· ≠ 10)).tail
  match active.find destination with
  | some _ => return ()
  | none => do
    let _ ← deleteSystemRoute (cString destination) (cString gateway)
    return ()

/-- `load_routes_locked` once the records are read. -/
def restoreRoutes [Platform] (installed : Routes) (saved : List SavedRoute) :
    HostProg (Routes × Except Bytes Unit) := do
  let now ← time
  let s ← Prog.loop (restoreRecord now) saved ⟨installed, OrdMap.empty, OrdMap.empty, false⟩
  let _ ← Prog.loop (deleteExpired s.active) s.expired.keys ()
  if s.restoreFailed then
    return (s.installed, .error (text "one or more persisted routes could not be restored"))
  else do
    let result ← saveRoutesLocked s.installed
    return (s.installed, result)

/-- `load_routes_locked`. -/
def loadRoutesLocked [Platform] (installed : Routes) : HostProg (Routes × Except Bytes Unit) := do
  match ← readRoutes with
  | .absent => return (installed, .ok ())
  | .openFailed code => return (installed, .error (setError "open route database" code))
  | .readFailed => return (installed, .error (text "read route database failed"))
  | .content content => restoreRoutes installed (parseRoutes content)

/-! ### Reading the global route settings -/

/-- The settings a file holds, `current` being those in memory: an error leaves them. -/
def parseGlobal [Platform] (current : Bytes × Bool) (content : Bytes) :
    (Bytes × Bool) × Except Bytes Unit :=
  match getlines content with
  | [] => (current, .error (text "invalid global route settings header"))
  | header :: rest =>
    if header ≠ globalHeader then (current, .error (text "invalid global route settings header"))
    else
      match rest with
      | [] => (([], false), .ok ())
      | line :: _ =>
        if line = [] then (([], false), .ok ())
        else
          match line.splitOn 9 with
          | [gateway, force] =>
            if validIpv4 (cString gateway) ∧ (force = text "0" ∨ force = text "1") then
              ((cString gateway, force = text "1"), .ok ())
            else (current, .error (text "invalid global route settings values"))
          | _ => (current, .error (text "invalid global route settings record"))

/-- `load_global_route_locked`. A read error shows as a missing header. -/
def loadGlobalRouteLocked [Platform] (current : Bytes × Bool) :
    HostProg ((Bytes × Bool) × Except Bytes Unit) := do
  match ← readGlobal with
  | .absent => return (current, .ok ())
  | .openFailed code => return (current, .error (setError "open global route settings" code))
  | .readFailed => return (current, .error (text "invalid global route settings header"))
  | .content content => return parseGlobal current content

end IpRouter.RouteManager
