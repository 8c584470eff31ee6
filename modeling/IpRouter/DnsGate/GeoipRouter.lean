import IpRouter.RouteService.Handlers

/-!
# The GeoIP router of dns-gate

`geoip_route_dns_result` of `geoip_router.cpp`: the addresses of a DNS answer
that lie in one of the configured countries are sent to ip-router, in one request
for the name that was asked for. The country of an address is what libmaxminddb
says, here a parameter.

The program makes one call, the HTTP request.
-/

namespace IpRouter.DnsGate

open Theory RouteService

/-! ### The request -/

/-- The calls of dns-gate. -/
inductive RouterCall where
  /-- `POST` to a URL of the router at an address, with a timeout. -/
  | post (address : Bytes) (timeout : ℤ) (url : Bytes)
  deriving DecidableEq

/-- How a request ends. -/
inductive RouterReply where
  /-- It cannot be sent. -/
  | failed
  /-- The body of the response cannot be read. -/
  | unread (status : ℤ)
  /-- The response. -/
  | answered (status : ℤ) (body : Bytes)

/-- A program of dns-gate. -/
abbrev GateProg := Prog RouterCall fun _ => RouterReply

/-- The calls of such a program, with their answers. -/
abbrev GateEvent := Event RouterCall fun _ => RouterReply

/-- The static variables of `geoip_router.cpp`. -/
structure GeoipRouter where
  /-- `database_open`. -/
  databaseOpen : Bool
  /-- `routing_enabled`. -/
  routingEnabled : Bool
  /-- `routed_countries`. -/
  routedCountries : OrdMap Bytes Unit
  /-- `ip_router_addr`. -/
  ipRouterAddr : Bytes
  /-- `route_gateway`. -/
  routeGateway : Bytes
  /-- `request_timeout`. -/
  requestTimeout : ℤ
  /-- `route_ttl`. -/
  routeTtl : ℤ

variable [Acl]

/-- `append_encoded_parameter`. -/
def appendEncodedParameter (url name value : Bytes) (first : Bool) : Bytes :=
  url ++ (if first then 63 else 38) :: (name ++ 61 :: Acl.urlEncode value)

omit [Acl] in
/-- The value of `ips`. -/
def joinAddresses (addresses : List Bytes) : Bytes :=
  addresses.foldl (fun values it => (if values = [] then [] else values ++ [44]) ++ it) []

/-- The URL `add_routes` sends its request to. -/
def GeoipRouter.url (r : GeoipRouter) (name : Bytes) (addresses : List Bytes) : Bytes :=
  let url := appendEncodedParameter (text "/route") (text "key") (Acl.lower name) true
  let url := appendEncodedParameter url (text "ips") (joinAddresses addresses) false
  let url := appendEncodedParameter url (text "gateway") r.routeGateway false
  appendEncodedParameter url (text "ttl") (decimal r.routeTtl) false

/-- `add_routes`. -/
def GeoipRouter.addRoutes (r : GeoipRouter) (name : Bytes) (addresses : List Bytes) :
    GateProg Bool := do
  let reply : RouterReply ← Prog.lift
    (RouterCall.post r.ipRouterAddr r.requestTimeout (r.url name addresses))
  match reply with
  | .failed => return false
  | .unread _ => return false
  | .answered status _ => return status = 200

/-! ### The answer -/

/-- Whether an address lies in one of the countries, by what the country database says. -/
def GeoipRouter.routed (r : GeoipRouter) (lookupCountry : Bytes → Option Bytes)
    (ip : Bytes) : Bool :=
  match lookupCountry ip with
  | none => false
  | some country => (r.routedCountries.find country).isSome

/-- The addresses to send: those in one of the countries, each once. -/
def GeoipRouter.matched (r : GeoipRouter) (lookupCountry : Bytes → Option Bytes)
    (addresses : List Bytes) : List Bytes :=
  (addresses.foldl (fun unique it => if r.routed lookupCountry it then
    unique.push it else unique) Distinct.empty).items

/-- `geoip_route_dns_result`. -/
def GeoipRouter.geoipRouteDnsResult (r : GeoipRouter) (lookupCountry : Bytes → Option Bytes)
    (name : Option Bytes) (addresses : List Bytes) : GateProg Unit :=
  if ¬ r.databaseOpen ∨ ¬ r.routingEnabled ∨ ¬ given name then return ()
  else
    let matched := r.matched lookupCountry addresses
    if matched ≠ [] then do
      let _ ← r.addRoutes (name.getD []) matched
      return ()
    else return ()

end IpRouter.DnsGate
