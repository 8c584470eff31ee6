import IpRouter.Theory.Text

/-!
# Requests of the route service

What `route_service.cpp` takes from a request, and what it requires of it. A
request is its parameters: `getParameter` gives the C string of a parameter, or
nothing when there is none.
-/

namespace IpRouter.RouteService

open Theory

/-- The functions of acl that decide what is sent in a request and what is read out of it. -/
class Acl where
  /-- `string::split2`: the tokens of a text between any of the separators. -/
  split2 : Bytes → Bytes → List Bytes
  /-- `string::lower`. -/
  lower : Bytes → Bytes
  /-- `string::url_encode`. -/
  urlEncode : Bytes → Bytes
  /-- The value `HttpServletRequest::getParameter` gives for a name, when the
  request was sent to this URL. -/
  urlParameter : Bytes → Bytes → Option Bytes

/-- **What is relied on**: `split2` gives the longest pieces without a separator, and `lower`
changes the letters of ASCII only. -/
structure Acl.Documented [Acl] : Prop where
  /-- `split2`. -/
  split2 : ∀ value separators, Acl.split2 value separators = tokens separators value
  /-- `lower`. -/
  lower : ∀ value, Acl.lower value = value.map toLower

/-- A platform with the functions of acl as they are documented. -/
abbrev documentedAcl : Acl :=
  ⟨fun value separators => tokens separators value, fun value => value.map toLower, id,
    fun _ _ => none⟩

/-- `HttpRequest`, as far as the service reads it. -/
structure HttpRequest where
  /-- The value of a parameter, a C string. -/
  getParameter : Bytes → Option Bytes

/-- `valid_route_key`: a missing or empty key is let through here. -/
def validRouteKey : Option Bytes → Bool
  | none => true
  | some key =>
    if key = [] then true
    else if 256 < key.length then false
    else key.all fun ch => !(ch < 0x20 || ch = 0x7f)

/-- `parse_ttl`: no value means a permanent route, and so does a negative one. -/
def parseTtl (request : HttpRequest) : Except Bytes ℤ :=
  match request.getParameter (text "ttl") with
  | none => .ok 0
  | some value =>
    if value = [] then .ok 0
    else
      let parsed := strtoll value
      if ¬ parsed.inRange ∨ ¬ parsed.parsed ∨ parsed.rest ≠ [] then
        .error (text "parameter 'ttl' must be an integer number of seconds")
      else .ok (if 0 < parsed.value then parsed.value else 0)

/-- `parameter`: the value of `primary`, or that of its alias `secondary` when it is missing or
empty. -/
def parameter (request : HttpRequest) (primary secondary : Bytes) : Option Bytes :=
  match request.getParameter primary with
  | some value => if value ≠ [] then some value else request.getParameter secondary
  | none => request.getParameter secondary

/-- `get_route_key`. -/
def getRouteKey (request : HttpRequest) : Option Bytes :=
  parameter request (text "key") (text "domain")

end IpRouter.RouteService
