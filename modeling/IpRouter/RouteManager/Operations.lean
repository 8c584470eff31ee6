import IpRouter.RouteManager.Storage

/-!
# The route manager's operations

`route_manager::add`, `remove`, `remove_system`, `list`, `set_global_route`, one
pass of the worker `expire_routes`, and `start`, each as the program the process
runs while it holds `routes_mutex`. An operation takes the index and gives the
index it leaves, with its result: an error is the text in the out-parameter
`error`.

Every operation that changes the index saves it: `add` before it touches the
system route table, the removals and the worker after. `commit` is the part the
two first paths of `add` share: put the new index in place, save it, and put the
old one back when that fails.
-/

namespace IpRouter.RouteManager

open Theory

variable [Platform]

/-! ### Adding -/

/-- Put `candidate` in place of `previous` and save it; when that fails put `previous` back. -/
def commit (previous candidate : Routes) : HostProg (Routes × Except Bytes Unit) := do
  match ← saveRoutesLocked candidate with
  | .error persistError => return (previous, .error persistError)
  | .ok _ => return (candidate, .ok ())

/-- The expiration time `add` computes: `0` for a permanent route. -/
def expiration (now ttl : ℤ) : ℤ := if 0 < ttl then now + ttl else 0

/-- The reference `add` stores. -/
def newTarget (gateway : Bytes) (now ttl : ℤ) : RouteMetadata :=
  ⟨gateway, max ttl 0, expiration now ttl, 0⟩

omit [Platform] in
@[simp] theorem newTarget_gateway (gateway : Bytes) (now ttl : ℤ) :
    (newTarget gateway now ttl).gateway = gateway :=
  rfl

/-- The error of `add` when another gateway is in use. -/
def conflictError (destination gateway key : Bytes) : Bytes :=
  text "IP " ++ destination ++ text " already uses gateway " ++ gateway ++ text " under key " ++ key

/-- `add` of a target no key refers to: saved first, then added to the system route table; when the
system refuses, the old index is put back and saved. -/
def addRoute (installed : Routes) (destination gateway key : Bytes) (metadata : RouteMetadata) :
    HostProg (Routes × Except Bytes Unit) := do
  match ← saveRoutesLocked (installed.set key destination metadata) with
  | .error persistError => return (installed, .error persistError)
  | .ok _ =>
    match ← addSystemRoute destination gateway with
    | .error systemError => do
      let _ ← saveRoutesLocked installed
      return (installed, .error systemError)
    | .ok _ => return (installed.set key destination metadata, .ok ())

/-- `add` once the expiration time is known. -/
def addTarget (installed : Routes) (destination gateway key : Bytes) (metadata : RouteMetadata) :
    HostProg (Routes × Except Bytes Unit) :=
  if installed.refs key destination = some gateway then
    -- the key holds this very route: only its times change
    commit installed (installed.set key destination metadata)
  else
    match installed.firstReference destination with
    | some (group, existing) =>
      if existing.gateway ≠ gateway then
        return (installed, .error (conflictError destination existing.gateway group))
      else commit installed (installed.set key destination metadata)
    | none => addRoute installed destination gateway key metadata

/-- `route_manager::add`. -/
def add (installed : Routes) (destination gateway key : Bytes) (ttl : ℤ) :
    HostProg (Routes × Except Bytes Unit) := do
  let now ← time
  if 0 < ttl ∧ int64Max - now < ttl then
    return (installed, .error (text "parameter 'ttl' is too large"))
  else addTarget installed destination gateway key (newTarget gateway now ttl)

/-! ### Removing -/

/-- The end of `remove` and `remove_system`: delete the system route, then every reference to it,
and save; when the save fails, put the old index and the system route back. -/
def deleteRoute (installed : Routes) (destination gateway : Bytes) :
    HostProg (Routes × Except Bytes Unit) := do
  match ← deleteSystemRoute destination gateway with
  | .error error => return (installed, .error error)
  | .ok _ =>
    match ← saveRoutesLocked (installed.forget destination gateway) with
    | .error persistError => do
      let _ ← addSystemRoute destination gateway
      return (installed, .error persistError)
    | .ok _ => return (installed.forget destination gateway, .ok ())

/-- The error of `remove` when the key does not hold the route. -/
def routeNotFound (key destination gateway : Bytes) : Bytes :=
  text "route not found under key " ++ key ++ text ": " ++ destination ++ text " via " ++ gateway

/-- `route_manager::remove`. -/
def remove (installed : Routes) (key destination gateway : Bytes) :
    HostProg (Routes × Except Bytes Unit) :=
  match OrdMap.find installed key with
  | none => return (installed, .error (text "route key not found: " ++ key))
  | some group =>
    match OrdMap.find group destination with
    | none => return (installed, .error (routeNotFound key destination gateway))
    | some target =>
      if target.gateway ≠ gateway then
        return (installed, .error (routeNotFound key destination gateway))
      else deleteRoute installed destination gateway

/-- `route_manager::remove_system`. -/
def removeSystem (installed : Routes) (destination gateway : Bytes) :
    HostProg (Routes × Except Bytes Unit) := do
  match ← listSystemRoutes with
  | .error error => return (installed, .error error)
  | .ok systemRoutes =>
    if systemRoutes.any fun it => it.ip = destination && it.gateway = gateway then
      deleteRoute installed destination gateway
    else
      return (installed, .error
        (text "system static host route not found: " ++ destination ++ text " via " ++ gateway))

/-! ### Listing -/

/-- `route_target`. -/
structure RouteTarget where
  /-- The target. -/
  ip : Bytes
  /-- The next hop. -/
  gateway : Bytes
  /-- The configured time to live. -/
  ttl : ℤ
  /-- When the route expires. -/
  expiresAt : ℤ
  deriving DecidableEq

/-- `route_entry`. -/
structure RouteEntry where
  /-- The key. -/
  key : Bytes
  /-- Its targets. -/
  targets : List RouteTarget
  deriving DecidableEq

/-- `route_manager::list`. -/
def list (installed : Routes) : List RouteEntry :=
  installed.entries.map fun group =>
    ⟨group.1, group.2.entries.map fun target => ⟨target.1, target.2.gateway, target.2.ttl,
      target.2.expiresAt⟩⟩

/-! ### Expiration -/

/-- The index in the middle of a pass of the worker, and whether anything was erased. -/
structure Sweep where
  /-- `installed_routes`. -/
  installed : Routes
  /-- `changed`. -/
  changed : Bool

/-- Whether the worker lets a target be: it is permanent, not expired, or was tried
less than 30 seconds ago. -/
def RouteMetadata.keep (metadata : RouteMetadata) (now : ℤ) : Bool :=
  metadata.expiresAt ≤ 0 ∨ now < metadata.expiresAt ∨
    (0 < metadata.lastAttempt ∧ now - metadata.lastAttempt < 30)

/-- The worker at one target of one key. -/
def expireTarget (now : ℤ) (key : Bytes) (s : Sweep) (ip : Bytes) : HostProg Sweep :=
  match s.installed.lookup key ip with
  | none => return s -- the iterator stands on a target, so there is one
  | some metadata =>
    if metadata.keep now then return s
    else
      let attempted := s.installed.set key ip { metadata with lastAttempt := now }
      if attempted.referencedElsewhere key ip then return ⟨attempted.eraseTarget key ip, true⟩
      else do
        match ← deleteSystemRoute ip metadata.gateway with
        | .ok _ => return ⟨attempted.eraseTarget key ip, true⟩
        | .error _ => return ⟨attempted, s.changed⟩

/-- The worker at one key: all its targets, then the group itself if nothing is left of it. Nothing
is inserted during the pass and only the element under the iterator is erased, so it visits the
targets that are there at its start. -/
def expireGroup (now : ℤ) (s : Sweep) (key : Bytes) : HostProg Sweep := do
  let swept ← Prog.loop (expireTarget now key) (s.installed.targets key) s
  return { swept with installed := swept.installed.dropIfEmpty key }

/-- One pass of `expire_routes`. -/
def expireRoutes (installed : Routes) : HostProg Routes := do
  let now ← time
  let swept ← Prog.loop (expireGroup now) installed.keys ⟨installed, false⟩
  if swept.changed then do
    let _ ← saveRoutesLocked swept.installed
    return swept.installed
  else return swept.installed

/-! ### The global route, and starting -/

/-- What the process keeps in memory. -/
structure Memory where
  /-- `installed_routes`. -/
  installedRoutes : Routes
  /-- `global_gateway`. -/
  globalGateway : Bytes
  /-- `force_global_gateway`. -/
  forceGlobalGateway : Bool

/-- The force flag `set_global_route` stores: never set without a gateway. -/
def storedForce (gateway : Bytes) (force : Bool) : Bool := gateway ≠ [] && force

/-- `route_manager::set_global_route`, where no gateway stands for `NULL`. -/
def setGlobalRoute (m : Memory) (gateway : Option Bytes) (force : Bool) :
    HostProg (Memory × Except Bytes Unit) :=
  if gateway.getD [] ≠ [] ∧ ¬ validIpv4 gateway then
    return (m, .error (text "global gateway must be a valid IPv4 address"))
  else do
    let configured := gateway.getD []
    match ← saveGlobalRouteLocked configured (storedForce configured force) with
    | .error error => return (m, .error error)
    | .ok _ => return (⟨m.installedRoutes, configured, storedForce configured force⟩, .ok ())

/-- `route_manager::start`: the memory is cleared and loaded; load errors are only logged. -/
def start : HostProg Memory := do
  let settings ← loadGlobalRouteLocked ([], false)
  let routes ← loadRoutesLocked OrdMap.empty
  return ⟨routes.1, settings.1.1, settings.1.2⟩

/-- What the process may be asked to do, and what its worker does. -/
inductive Op where
  /-- `route_manager::add`. -/
  | add (destination gateway key : Bytes) (ttl : ℤ)
  /-- `route_manager::remove`. -/
  | remove (key destination gateway : Bytes)
  /-- `route_manager::remove_system`. -/
  | removeSystem (destination gateway : Bytes)
  /-- A pass of the expiration worker. -/
  | expire
  /-- `route_manager::set_global_route`. -/
  | setGlobalRoute (gateway : Option Bytes) (force : Bool)

/-- An operation on the index, as one on the memory. -/
def onRoutes (m : Memory) (p : Routes → HostProg (Routes × Except Bytes Unit)) :
    HostProg (Memory × Except Bytes Unit) := do
  let result ← p m.installedRoutes
  return ({ m with installedRoutes := result.1 }, result.2)

/-- The program of an operation. -/
def Op.prog (m : Memory) : Op → HostProg (Memory × Except Bytes Unit)
  | .add destination gateway key ttl =>
    onRoutes m fun installed => RouteManager.add installed destination gateway key ttl
  | .remove key destination gateway =>
    onRoutes m fun installed => RouteManager.remove installed key destination gateway
  | .removeSystem destination gateway =>
    onRoutes m fun installed => RouteManager.removeSystem installed destination gateway
  | .expire => onRoutes m fun installed => do
    let swept ← expireRoutes installed
    return (swept, .ok ())
  | .setGlobalRoute gateway force => RouteManager.setGlobalRoute m gateway force

end IpRouter.RouteManager
