import IpRouter.RouteManager.Operations
import IpRouter.RouteService.Requests
import IpRouter.Theory.Distinct

/-!
# The handlers of the route service

`route_add` and `route_delete` of `route_service.cpp`, with what they share, each
as the program it runs on the route manager. A call of the route manager takes
`routes_mutex` and gives it back, so between two calls of a handler anything may
happen to the index; the handlers only know what the calls have answered.

A response is the data the handler puts into its JSON.
-/

namespace IpRouter.RouteService

open Theory RouteManager

/-! ### Calls and responses -/

/-- The calls the handlers make. -/
inductive ManagerCall where
  /-- `route_manager::get_global_route`. -/
  | getGlobalRoute
  /-- `route_manager::list`. -/
  | list
  /-- `route_manager::add`. -/
  | add (destination gateway key : Bytes) (ttl : ℤ)
  /-- `route_manager::remove`. -/
  | remove (key destination gateway : Bytes)
  deriving DecidableEq

/-- What they answer; an error is the text left in `error`. -/
def ManagerCall.Reply : ManagerCall → Type
  | .getGlobalRoute => Bytes × Bool
  | .list => List RouteEntry
  | .add _ _ _ _ | .remove _ _ _ => Except Bytes Unit

/-- A handler of the service. -/
abbrev Handler := Prog ManagerCall ManagerCall.Reply

/-- The calls of a handler, with their answers. -/
abbrev ManagerEvent := Event ManagerCall ManagerCall.Reply

/-- What `reply_json` writes; what is not there is left out. -/
structure JsonReply where
  /-- The HTTP status. -/
  status : ℕ
  /-- `success`. -/
  success : Bool
  /-- `message`. -/
  message : Bytes
  /-- `ip`. -/
  destination : Option Bytes := none
  /-- `gateway`. -/
  gateway : Option Bytes := none
  /-- `key`. -/
  key : Option Bytes := none
  /-- `ttl`. -/
  ttl : Option ℤ := none
  /-- `global_gateway_applied`. -/
  globalGatewayApplied : Option Bool := none

/-- An item of `routes` in the response to a batch. -/
structure AddedRoute where
  /-- `ip`. -/
  ip : Bytes
  /-- `success`. -/
  success : Bool
  /-- `message`. -/
  message : Bytes

/-- An item of `routes` in the response to a removal. -/
structure DeletedRoute where
  /-- `key`. -/
  key : Bytes
  /-- `ip`. -/
  ip : Bytes
  /-- `gateway`. -/
  gateway : Bytes
  /-- `success`. -/
  success : Bool
  /-- `message`. -/
  message : Bytes

/-- What the handlers write. -/
inductive HttpResponse where
  /-- By `reply_json`. -/
  | reply (json : JsonReply)
  /-- By `route_add` for a batch. -/
  | routesAdded (status : ℕ) (success : Bool) (message gateway : Bytes)
      (globalGatewayApplied : Bool) (key : Bytes)
      (ttl : ℤ) (count succeeded : ℕ) (routes : List AddedRoute)
  /-- By `route_delete`. -/
  | routesDeleted (status : ℕ) (success : Bool) (message : Bytes) (count succeeded : ℕ)
      (routes : List DeletedRoute)

/-- A refused request. -/
def badRequest (message : Bytes) : HttpResponse :=
  .reply { status := 400, success := false, message }

/-- `value != NULL && *value != 0`. -/
def given (value : Option Bytes) : Bool := value.getD [] ≠ []

/-- The status of a response about several routes. -/
def batchStatus (count succeeded : ℕ) : ℕ :=
  if succeeded = count then 200 else if succeeded = 0 then 500 else 207

/-! ### Adding -/

variable [Platform]

/-- `resolve_add_gateway`: the gateway to use, and whether it is the global one. -/
def resolveAddGateway (request : HttpRequest) : Handler (Except Bytes (Bytes × Bool)) := do
  let requested := parameter request (text "gateway") (text "route")
  let settings : Bytes × Bool ← Prog.lift ManagerCall.getGlobalRoute
  if settings.1 ≠ [] ∧ (settings.2 ∨ ¬ given requested) then return .ok (settings.1, true)
  else if ¬ validIpv4 requested then
    return .error (if given requested then text "parameter 'gateway' must be a valid IPv4 address"
      else text "parameter 'gateway' is required when no global gateway is configured")
  else return .ok (requested.getD [], false)

/-- What the handlers require of the key: a text that stands in the way, or the key. -/
def checkKey (request : HttpRequest) : Except Bytes Bytes :=
  let key := getRouteKey request
  if ¬ given key then .error (text "parameter 'key' is required")
  else if ¬ validRouteKey key then
    .error (text "parameter 'key' is too long or contains control characters")
  else .ok (key.getD [])

/-- `change_route(request, response, true)`. -/
def changeRoute (request : HttpRequest) : Handler HttpResponse := do
  let destination := parameter request (text "ip") (text "target")
  if ¬ validIpv4 destination then
    return badRequest (text "parameter 'ip' must be a valid IPv4 address")
  else
    match ← resolveAddGateway request with
    | .error e => return badRequest e
    | .ok (gateway, applied) =>
      match checkKey request with
      | .error e => return badRequest e
      | .ok key =>
        match parseTtl request with
        | .error e => return badRequest e
        | .ok ttl => do
          let destination := destination.getD []
          let result : Except Bytes Unit ← Prog.lift (ManagerCall.add destination gateway key ttl)
          match result with
          | .error e =>
            return .reply ⟨500, false, e, some destination, some gateway, some key, none, none⟩
          | .ok _ =>
            return .reply ⟨200, true, text "route added", some destination, some gateway, some key,
              some ttl, some applied⟩

/-- The addresses of a batch without the repeated ones, up to the first that is not valid. -/
def collect : List Bytes → Distinct Bytes → Except Bytes (List Bytes)
  | [], unique => .ok unique.items
  | it :: tokens, unique =>
    if ¬ validIpv4 (some it) then .error (text "invalid IPv4 address in 'ips': " ++ it)
    else collect tokens (unique.push it)

/-- The addresses of a batch, or what is wrong with them. -/
def destinations (tokens : List Bytes) : Except Bytes (List Bytes) :=
  if tokens = [] ∨ 256 < tokens.length then
    .error (text "parameter 'ips' must contain between 1 and 256 IPv4 addresses")
  else collect tokens Distinct.empty

omit [Platform] in
/-- `route_add` at one address of a batch. -/
def addDestination (gateway key : Bytes) (ttl : ℤ) (done : ℕ × List AddedRoute) (ip : Bytes) :
    Handler (ℕ × List AddedRoute) := do
  let result : Except Bytes Unit ← Prog.lift (ManagerCall.add ip gateway key ttl)
  match result with
  | .error e => return (done.1, done.2 ++ [⟨ip, false, e⟩])
  | .ok _ => return (done.1 + 1, done.2 ++ [⟨ip, true, text "route added"⟩])

/-- `route_add`: one address, or a batch of them in `ips`. -/
def routeAdd [Acl] (request : HttpRequest) : Handler HttpResponse := do
  let values := request.getParameter (text "ips")
  if ¬ given values then changeRoute request
  else
    match ← resolveAddGateway request with
    | .error e => return badRequest e
    | .ok (gateway, applied) =>
      match checkKey request with
      | .error e => return badRequest e
      | .ok key =>
        match parseTtl request with
        | .error e => return badRequest e
        | .ok ttl =>
          match destinations (Acl.split2 (values.getD []) (text ",; \t\r\n")) with
          | .error e => return badRequest e
          | .ok destinations => do
            let (succeeded, results) ← Prog.loop (addDestination gateway key ttl)
              destinations (0, [])
            let allSucceeded : Bool := succeeded = destinations.length
            return .routesAdded (batchStatus destinations.length succeeded) allSucceeded
              (if allSucceeded then text "all routes added" else text "one or more routes failed")
              gateway applied key ttl destinations.length succeeded results

/-! ### Removing -/

/-- Whether a value passes a filter of a removal: there is no filter, or it is this value. -/
def wanted (filter : Option Bytes) (value : Bytes) : Bool := ¬ given filter ∨ filter = some value

/-- A removal under way. -/
structure Deletion where
  /-- `matched`. -/
  matched : ℕ
  /-- `succeeded`. -/
  succeeded : ℕ
  /-- `deleted_system_routes`: target and gateway of what has been deleted, as `ip\ngateway`. -/
  deletedSystemRoutes : OrdMap Bytes Unit
  /-- `results`. -/
  results : List DeletedRoute

/-- Note how the removal of one target went. -/
def Deletion.note (d : Deletion) (key : Bytes) (target : RouteTarget) : Except Bytes Unit → Deletion
  | .ok _ =>
    ⟨d.matched + 1, d.succeeded + 1,
      d.deletedSystemRoutes.insert (routeId target.ip target.gateway) (),
      d.results ++ [⟨key, target.ip, target.gateway, true, text "route deleted"⟩]⟩
  | .error e =>
    ⟨d.matched + 1, d.succeeded, d.deletedSystemRoutes,
      d.results ++ [⟨key, target.ip, target.gateway, false, e⟩]⟩

/-- `route_delete` at one target. -/
def deleteTarget (destination : Option Bytes) (key : Bytes) (d : Deletion) (target : RouteTarget) :
    Handler Deletion :=
  if ¬ wanted destination target.ip then return d
  else
    match d.deletedSystemRoutes.find (routeId target.ip target.gateway) with
    | some _ =>
      return d.note key target (.ok ()) -- an earlier removal has taken it from this key too
    | none => do
      let result : Except Bytes Unit ← Prog.lift (ManagerCall.remove key target.ip target.gateway)
      return d.note key target result

/-- `route_delete` at one key. -/
def deleteGroup (key destination : Option Bytes) (d : Deletion) (group : RouteEntry) :
    Handler Deletion :=
  if ¬ wanted key group.key then return d
  else Prog.loop (deleteTarget destination group.key) group.targets d

/-- The response of `route_delete`. -/
def Deletion.response (d : Deletion) : HttpResponse :=
  if d.matched = 0 then .routesDeleted 404 false (text "no matching routes found") 0 0 d.results
  else
    let allSucceeded : Bool := d.matched = d.succeeded
    .routesDeleted (batchStatus d.matched d.succeeded) allSucceeded
      (if allSucceeded then text "all matching routes deleted" else
        text "one or more routes failed")
      d.matched d.succeeded d.results

/-- `route_delete`: the targets `list` gives, as far as they have the key and the address asked
for. -/
def routeDelete (request : HttpRequest) : Handler HttpResponse := do
  let key := getRouteKey request
  let destination := parameter request (text "ip") (text "target")
  if ¬ given key ∧ ¬ given destination then
    return badRequest (text "at least one of 'key' or 'ip' is required")
  else if given key ∧ ¬ validRouteKey key then
    return badRequest (text "parameter 'key' is too long or contains control characters")
  else if given destination ∧ ¬ validIpv4 destination then
    return badRequest (text "parameter 'ip' must be a valid IPv4 address")
  else do
    let routes : List RouteEntry ← Prog.lift ManagerCall.list
    let d ← Prog.loop (deleteGroup key destination) routes ⟨0, 0, OrdMap.empty, []⟩
    return d.response

end IpRouter.RouteService
