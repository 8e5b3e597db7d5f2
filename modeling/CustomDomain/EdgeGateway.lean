import CustomDomain.ApplicationService
import CustomDomain.CanonicalNames
import CustomDomain.EdgeConfig

/-!
# The gateway in front of Caddy

`validate_apps` of `app/edge/gateway.py`, over any JSON value.  It ends by itself, with
`ConfigRejected`, or with another exception where it takes a part of the value for something it is
not.
-/

namespace CustomDomain.Gateway

open PythonText PythonJson
open Json (isNull lookup pyEq pyEqItems pyGet)

/-! ## How the validation ends -/

/-- The exceptions of the built-in operations. -/
inductive PyError where
  | typeError
  | indexError
  | keyError
  | valueError
  deriving DecidableEq, Repr

inductive Stop where
  /-- `ConfigRejected`. -/
  | rejected (reason : String)
  | raised (error : PyError)

abbrev Checked := Except Stop

def reject {α : Type} (reason : String) : Checked α := .error (.rejected reason)

def raise {α : Type} (error : PyError) : Checked α := .error (.raised error)

/-- `if refused: raise ConfigRejected(reason)`. -/
def refuse (refused : Bool) (reason : String) : Checked Unit :=
  if refused then reject reason else .ok ()

/-- `EdgeFacts`; a mapping of upstreams alone has the other fields empty. -/
structure EdgeFacts where
  upstreams : List (String × String)
  edgeNames : List String := []
  portalRanges : List String := []
  publicApi : Bool := false
  operatorRanges : List String := []

/-! ## Built-in operations on JSON values -/

/-- `str` and `repr`, as far as they are not fixed here: the text of a string in quotes, the first digit
and the rest of a finite float without its sign, and the insides of lists and dictionaries. -/
structure Printing where
  quoted : String → String
  magnitude : Rat → Fin 10 × String
  items : List Json → String
  fields : List (String × Json) → String

/-- `repr(value)`. -/
def Printing.repr (printing : Printing) : Json → String
  | .null => "None"
  | .bool value => if value then "True" else "False"
  | .int value => toString value
  | .float .nan => "nan"
  | .float (.infinite negative) => if negative then "-inf" else "inf"
  | .float (.finite value) =>
      let (digit, rest) := printing.magnitude |value|
      (if value < 0 then "-" else "") ++ toString digit.val ++ rest
  | .str text => printing.quoted text
  | .arr items => "[" ++ printing.items items ++ "]"
  | .obj fields => "\x7b" ++ printing.fields fields ++ "\x7d"

/-- `str(value)`. -/
def Printing.str (printing : Printing) : Json → String
  | .str text => text
  | value => printing.repr value

/-- Lists and dictionaries have no hash. -/
def hashable : Json → Bool
  | .arr _ => false
  | .obj _ => false
  | _ => true

/-- `set(value)`, as the list of its elements. -/
def elements : Json → Checked (List Json)
  | .arr items => if items.all hashable then .ok items else raise .typeError
  | .obj fields => .ok (fields.map fun field => .str field.1)
  | .str text => .ok (text.toList.map fun character => .str (String.singleton character))
  | _ => raise .typeError

/-- `set(value) == {key}`. -/
def onlyElement (key : String) (value : Json) : Checked Bool := do
  let found ← elements value
  return !found.isEmpty && found.all (pyEq · (.str key))

/-- `set(fields) == set(keys)`. -/
def sameKeys (fields : List (String × Json)) (keys : List String) : Bool :=
  fields.all (fun field => decide (field.1 ∈ keys)) && keys.all fun key => (lookup key fields).isSome

/-- `value[key]`, for a text `key`. -/
def subscript (value : Json) (key : String) : Checked Json :=
  match value with
  | .obj fields =>
      match lookup key fields with
      | some found => .ok found
      | none => raise .keyError
  | _ => raise .typeError

/-- `int(text)`. -/
def intOfText (text : String) : Option Int :=
  let (negative, digits) := match (strip text).toList with
    | '-' :: digits => (true, digits)
    | '+' :: digits => (false, digits)
    | digits => (false, digits)
  let pieces := digits.splitOn '_'
  if pieces.any List.isEmpty then none
  else (intOfDigits (String.ofList pieces.flatten)).map fun value => if negative then -value else value

/-! ## Routes on the edge's own names -/

/-- `_route_hosts`. -/
def routeHosts (route : List (String × Json)) : Option (List Json) :=
  match pyGet "match" route with
  | .arr (.obj first :: _) =>
      match pyGet "host" first with
      | .arr hosts => some hosts
      | _ => none
  | _ => none

/-- `set(hosts) - set(names)`: whether there is any. -/
def strangers (hosts : List Json) (names : List String) : Checked Bool := do
  let hosts ← elements (.arr hosts)
  return hosts.any fun host => !names.any fun name => pyEq host (.str name)

/-- `sorted(hosts)`, for texts. -/
def sortedHosts (hosts : List Json) : List String :=
  (hosts.filterMap fun host =>
    match host with
    | .str name => some name
    | _ => none).mergeSort fun first second => decide (first ≤ second)

/-- What the routes on the edge's own names are refused with. -/
structure Refusals where
  notAllowed : String
  names : String
  exact_ : String

/-- The routes that are expected first, for the hosts of the first of them: what is left of the
routes after them. -/
def takeRoutes (facts : EdgeFacts) (allowed : Bool) (refusals : Refusals) (count : Nat)
    (expected : List String → List Json) (first : List (String × Json)) (middle : List Json) :
    Checked (List Json) := do
  refuse (!allowed) refusals.notAllowed
  let hosts := (routeHosts first).getD []
  refuse hosts.isEmpty refusals.names
  let strange ← strangers hosts facts.edgeNames
  refuse strange refusals.names
  refuse (!pyEqItems (middle.take count) (expected (sortedHosts hosts))) refusals.exact_
  return middle.drop count

section Segments

variable (printing : Printing) (settings : ConfigSettings) (facts : EdgeFacts)

def isPortal (route : List (String × Json)) : Bool :=
  startsWith "portal" (printing.str ((lookup "@id" route).getD (.str "")))

def isOperator (route : List (String × Json)) : Bool :=
  pyEq (pyGet "@id" route) (.str "operator") || pyEq (pyGet "@id" route) (.str "operator-denied")

def isApi (route : List (String × Json)) : Bool := pyEq (pyGet "@id" route) (.str "api")

/-- The portal pair, where the first route is named for it. -/
def takePortal (middle : List Json) : Checked (List Json) :=
  match middle with
  | .obj first :: _ =>
      if isPortal printing first then
        takeRoutes facts (!facts.portalRanges.isEmpty)
          { notAllowed := "portal routes are not allowed: the API exposes no portal"
            names := "portal routes may only be served on the applications' edge names"
            exact_ := "portal routes must be exactly the reconciler's portal routes" }
          2 (fun hosts => portalRoutesFor hosts facts.portalRanges settings.assertUpstream)
          first middle
      else .ok middle
  | _ => .ok middle

/-- The operator pair, where the first route is named for it. -/
def takeOperator (middle : List Json) : Checked (List Json) :=
  match middle with
  | .obj first :: _ =>
      if isOperator first then
        takeRoutes facts (!facts.operatorRanges.isEmpty)
          { notAllowed := "operator routes are not allowed: the API exposes no operator API"
            names := "operator routes may only be served on the edge's own names"
            exact_ := "operator routes must be exactly the reconciler's operator routes" }
          2 (fun hosts => operatorRoutesFor hosts facts.operatorRanges settings.assertUpstream)
          first middle
      else .ok middle
  | _ => .ok middle

/-- The API route, where the first route is named for it. -/
def takeApi (middle : List Json) : Checked (List Json) :=
  match middle with
  | .obj first :: _ =>
      if isApi first then
        takeRoutes facts facts.publicApi
          { notAllowed := "the api route is not allowed: the API is not public"
            names := "the api route may only be served on the edge's own names"
            exact_ := "the api route must be exactly the reconciler's api route" }
          1 (fun hosts => apiRouteFor hosts settings.assertUpstream) first middle
      else .ok middle
  | _ => .ok middle

end Segments

/-! ## Application routes -/

/-- What names a route: the text of its identifier, and its fields. -/
structure NamedRoute where
  id : String
  fields : List (String × Json)

/-- The application route by its keys, its name and that it is terminal. -/
def namedRoute (printing : Printing) (route : Json) : Checked NamedRoute :=
  match route with
  | .obj fields => do
      refuse (!sameKeys fields ["@id", "match", "handle", "terminal"])
        "application routes must have @id, match, handle and terminal only"
      let id := printing.str (pyGet "@id" fields)
      let terminal := match pyGet "terminal" fields with
        | .bool true => true
        | _ => false
      refuse (!startsWith "app-" id || !terminal)
        "application routes must be terminal and named app-<slug>"
      return ⟨id, fields⟩
  | _ => reject "application routes must have @id, match, handle and terminal only"

/-- The one value in a list that has this key only: the matcher of a route, the upstream of a proxy. -/
def singleField (key reason : String) (value : Json) : Checked Json :=
  match value with
  | .arr [single] => do
      let only ← onlyElement key single
      refuse (!only) reason
      subscript single key
  | _ => reject reason

/-- The hosts of a matcher: a list of them, not empty. -/
def hostList (hosts : Json) : Checked (List Json) :=
  match hosts with
  | .arr (first :: rest) => .ok (first :: rest)
  | _ => reject "host matcher must be a non-empty list"

/-- The loop over the hosts: the hosts seen after it. -/
def validateHostItems (tables : NameTables) (printing : Printing) :
    List String → List Json → Checked (List String)
  | seen, [] => .ok seen
  | seen, host :: rest =>
      match canonicalize tables (printing.str host) false with
      | .error refused =>
          reject ("host " ++ printing.repr host ++ " is not a valid customer hostname: " ++ refused.code)
      | .ok canonical =>
          if !pyEq (.str canonical) host || seen.contains canonical then
            reject ("host " ++ printing.repr host ++ " is not canonical or is duplicated")
          else validateHostItems tables printing (seen ++ [canonical]) rest

/-- One zone of a rate limit. -/
def validateZone (printing : Printing) (routeId name : String) (zone : Json) : Checked Unit := do
  let windowName := removePrefix (routeId ++ "-") name
  match rateWindows.lookup windowName with
  | some window =>
      refuse (!startsWith (routeId ++ "-") name)
        ("rate limit zone " ++ printing.quoted name ++ " must be " ++ routeId ++ "-minute or -second")
      let count := match zone with
        | .obj fields => pyGet "max_events" fields
        | _ => .null
      let inRange := match count with
        | .int count => decide (1 ≤ count ∧ count ≤ maxRate)
        | _ => false
      refuse (!pyEq zone (.obj [("key", .str routeId), ("window", .str window), ("max_events", count)]) ||
          !inRange)
        ("rate limit zone " ++ printing.quoted name ++ " must count per application (" ++ routeId ++
          ") in a " ++ window ++ " window, 1 to " ++ toString maxRate ++ " requests")
  | none =>
      reject ("rate limit zone " ++ printing.quoted name ++ " must be " ++ routeId ++
        "-minute or -second")

/-- `_validate_rate_limit`. -/
def validateRateLimit (printing : Printing) (routeId : String) (handler : Json) : Checked Unit :=
  match handler with
  | .obj fields => do
      refuse (!sameKeys fields ["handler", "rate_limits"])
        "a rate limit must have handler and rate_limits only"
      match pyGet "rate_limits" fields with
      | .obj (first :: rest) => do
          refuse (!pyEq (pyGet "handler" fields) (.str "rate_limit"))
            "the first of four handlers must be a rate limit"
          (first :: rest).forM fun zone => validateZone printing routeId zone.1 zone.2
      | _ => reject "the first of four handlers must be a rate limit"
  | _ => reject "a rate limit must have handler and rate_limits only"

/-- The three standard handlers, after a rate limit where there are four. -/
def standardHandlers (printing : Printing) (routeId : String) (handle : Json) :
    Checked (Json × Json × Json) :=
  let reason :=
    "application routes must have the three standard handlers, optionally after a rate limit"
  match handle with
  | .arr [limit, strip, assert_, proxy] => do
      validateRateLimit printing routeId limit
      return (strip, assert_, proxy)
  | .arr [strip, assert_, proxy] => .ok (strip, assert_, proxy)
  | _ => reject reason

/-- The fields of the proxy to an origin. -/
def proxyFields (printing : Printing) (proxy : Json) : Checked (List (String × Json)) :=
  match proxy with
  | .obj fields => do
      refuse (!pyEq (pyGet "handler" fields) (.str "reverse_proxy"))
        "third handler must be reverse_proxy"
      refuse (fields.any fun field => !(["handler", "upstreams", "headers", "transport"].contains field.1))
        ("reverse_proxy keys must be a subset of " ++
          printing.repr (texts ["handler", "headers", "transport", "upstreams"]))
      return fields
  | _ => reject "third handler must be reverse_proxy"

/-- `allowed_upstreams[dial]`, where it is one of them. -/
def originHost (printing : Printing) (upstreams : List (String × String)) (dial : Json) :
    Checked (String × String) :=
  if !hashable dial then raise .typeError
  else
    match dial with
    | .str name =>
        match upstreams.lookup name with
        | some host => .ok (name, host)
        | none => reject ("upstream " ++ printing.repr dial ++ " is not a verified active origin")
    | _ => reject ("upstream " ++ printing.repr dial ++ " is not a verified active origin")

/-- `int(dial.rsplit(":", 1)[1])`. -/
def dialPort (dial : String) : Checked Int :=
  match rsplitOnce ':' dial with
  | [_, port] =>
      match intOfText port with
      | some port => .ok port
      | none => raise .valueError
  | _ => raise .indexError

/-- The headers and the transport of the proxy to an origin. -/
def validateProxy (fields : List (String × Json)) (host : String) (port : Int) : Checked Unit := do
  let transport := pyGet "transport" fields
  let tls := !isNull transport
  let headers := pyGet "headers" fields
  refuse (!pyEq headers (originHeaders (placeholder "http.request.host")) &&
      !pyEq headers (originHeaders (originHostValue host port tls)))
    ("reverse_proxy headers must set Host (the customer's hostname or the origin's own " ++
      "name) and X-Forwarded-* only")
  refuse (tls && !pyEq transport (originTransport host))
    "reverse_proxy transport may only enable verified TLS to the origin's own name"

/-- `_validate_app_route`: the hosts seen after it. -/
def validateAppRoute (tables : NameTables) (printing : Printing) (settings : ConfigSettings)
    (upstreams : List (String × String)) (seen : List String) (route : Json) :
    Checked (List String) := do
  let named ← namedRoute printing route
  let hosts ← singleField "host" "application routes must match on host only"
    (pyGet "match" named.fields)
  let hosts ← hostList hosts
  let seen ← validateHostItems tables printing seen hosts
  let (strip, assert_, proxy) ← standardHandlers printing named.id (pyGet "handle" named.fields)
  refuse (!pyEq strip stripHandler) "first handler must strip the reserved request headers"
  refuse (!pyEq assert_ (assertionSubrequest settings))
    "second handler must be the assert subrequest to the configured upstream"
  let fields ← proxyFields printing proxy
  let dial ← singleField "dial" "reverse_proxy must have exactly one upstream with dial only"
    (pyGet "upstreams" fields)
  let (dial, host) ← originHost printing upstreams dial
  let port ← dialPort dial
  validateProxy fields host port
  return seen

/-- The application routes one after the other. -/
def validateAppRoutes (tables : NameTables) (printing : Printing) (settings : ConfigSettings)
    (upstreams : List (String × String)) : List String → List Json → Checked (List String)
  | seen, [] => .ok seen
  | seen, route :: routes => do
      let seen ← validateAppRoute tables printing settings upstreams seen route
      validateAppRoutes tables printing settings upstreams seen routes

/-! ## The apps -/

section Apps

variable (printing : Printing) (settings : ConfigSettings)

/-- Every field of `expected` but one, as the value has it. -/
def validateFields (reason : String → Json → String) (expected : List (String × Json))
    (but : String) (fields : List (String × Json)) : Checked Unit :=
  expected.forM fun field =>
    refuse (decide (field.1 ≠ but) && !pyEq (pyGet field.1 fields) field.2) (reason field.1 field.2)

/-- `http.servers.edge.routes`, in the one app and server there may be. -/
def serverRoutes (apps : List (String × Json)) : Checked (List Json) := do
  refuse (apps.any fun field => !(["http", "tls"].contains field.1))
    ("unexpected apps: " ++ printing.repr (texts (((apps.map (·.1)).filter fun name =>
      !(["http", "tls"].contains name)).mergeSort fun first second => decide (first ≤ second))))
  let expected := httpApp settings []
  let httpReason := "http keys must be exactly " ++
    printing.repr (texts ((expected.map (·.1)).mergeSort fun first second => decide (first ≤ second)))
  match pyGet "http" apps with
  | .obj http =>
      refuse (!sameKeys http (expected.map (·.1))) httpReason
      validateFields (fun key value => "http." ++ key ++ " must be " ++ printing.repr value) expected
        "servers" http
      let serversReason := "exactly one server named " ++ printing.quoted serverName ++ " is allowed"
      match pyGet "servers" http with
      | .obj servers =>
          refuse (!sameKeys servers [serverName]) serversReason
          let allowed := (server settings []).map (·.1)
          let serverReason := "server keys must be a subset of " ++
            printing.repr (texts (allowed.mergeSort fun first second => decide (first ≤ second)))
          match pyGet serverName servers with
          | .obj fields =>
              refuse (fields.any fun field => !allowed.contains field.1) serverReason
              validateFields (fun key value => "server." ++ key ++ " must be " ++ printing.repr value)
                (server settings []) "routes" fields
              match pyGet "routes" fields with
              | .arr routes =>
                  refuse (decide (routes.length < 2)) "routes must be a list starting with the health route"
                  return routes
              | _ => reject "routes must be a list starting with the health route"
          | _ => reject serverReason
      | _ => reject serversReason
  | _ => reject httpReason

/-- The routes between the health route and the unmatched route. -/
def middleRoutes (routes : List Json) : Checked (List Json) := do
  refuse (!(routes.head?.any (pyEq · healthRoute))) "first route must be the health route"
  refuse (!(routes.getLast?.any (pyEq · unmatchedRoute))) "last route must be the unmatched route"
  return routes.tail.dropLast

/-- The TLS app: the one that is expected, or none at all while HTTPS is disabled. -/
def validateTls (apps : List (String × Json)) : Checked Unit :=
  if settings.disableHttps then
    refuse (!isNull (pyGet "tls" apps)) "tls is not allowed while HTTPS is disabled"
  else
    refuse (!pyEq (pyGet "tls" apps) (tlsAutomation settings))
      "tls automation must be exactly the on-demand policy"

/-- `validate_apps`. -/
def validateApps (tables : NameTables) (facts : EdgeFacts) (apps : Json) : Checked Unit :=
  match apps with
  | .obj fields => do
      let routes ← serverRoutes printing settings fields
      let middle ← middleRoutes routes
      let middle ← takePortal printing settings facts middle
      let middle ← takeOperator settings facts middle
      let middle ← takeApi settings facts middle
      let _ ← validateAppRoutes tables printing settings facts.upstreams [] middle
      validateTls settings fields
  | _ => reject "apps must be an object"

end Apps

end CustomDomain.Gateway
