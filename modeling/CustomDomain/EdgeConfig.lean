import CustomDomain.EdgeSettings
import CustomDomain.IpNetworks
import CustomDomain.JsonEquality

/-!
# The configuration of Caddy

`app/edge/config.py`, from its settings and the groups of hostnames it routes: the routes, the
server and the apps, as the JSON values that are sent to Caddy.
-/

namespace CustomDomain

open PythonText PythonIp PythonJson
open Json (plain proper properItems properFields lookup)

/-- `EdgeSettings`, with the fields that the configuration is built from besides. -/
structure ConfigSettings extends EdgeSettings where
  disableHttps : Bool := false
  acmeEmail : Option String := none
  askUrl : String := "http://localhost:9000/internal/tls/ask"
  edgeToken : Option String := none
  assertUpstream : String := "localhost:9000"
  operatorApiEnabled : Bool := false
  edgeHostname : Option String := none
  publicApi : Bool := false

/-! ## Allowlists -/

/-- `str(ip_network(text, strict=False))`, or `none` where it raises. -/
def networkText (text : String) : Option String :=
  let ipv4 (value length : Nat) : String :=
    ipv4Text (value / 2 ^ (32 - length) * 2 ^ (32 - length)) ++ "/" ++ toString length
  match split '/' text with
  | [address] =>
      (parseIpv4 address).map (fun value => ipv4 value 32) <|>
        (parseIpv6 address).map fun value => ipv6NetworkText value (scopeId address) 128
  | [address, mask] =>
      (parseIpv4 address >>= fun value =>
          (prefixLength 32 mask <|> maskPrefix mask).map fun length => ipv4 value length) <|>
        parseIpv6 address >>= fun value =>
          (prefixLength 128 mask).map fun length => ipv6NetworkText value (scopeId address) length
  | _ => none

/-- `_ranges`. -/
def ranges (entries : List String) : Option (List String) := entries.mapM networkText

namespace ConfigSettings

/-- `portal_ranges`. -/
def portalRanges (settings : ConfigSettings) : Option (List String) :=
  ranges settings.portalAllowedIps

/-- `operator_ranges`. -/
def operatorRanges (settings : ConfigSettings) : Option (List String) :=
  if settings.operatorApiEnabled then ranges settings.operatorAllowedIps else some []

/-- `tls_issuer_config`. -/
def tlsIssuerConfig (settings : ConfigSettings) : Json :=
  if settings.tlsIssuer = "internal" then .obj [("module", .str "internal")]
  else .obj (("module", .str "acme") ::
    (settings.acmeEmail.filter (· ≠ "")).toList.map fun email => ("email", .str email))

end ConfigSettings

/-! ## Names -/

def serverName : String := "edge"

def assertionHeader : String := "X-Custom-Domain-Assertion"

def edgeHealthHeader : String := "X-Custom-Domain-Edge"

def edgeHostHeader : String := "X-Custom-Domain-Edge-Host"

def edgeSniHeader : String := "X-Custom-Domain-Edge-Sni"

def edgeRequestIdHeader : String := "X-Custom-Domain-Edge-Request-Id"

def edgeTokenHeader : String := "X-Custom-Domain-Edge-Token"

/-- Headers a client must never be able to smuggle to an origin. -/
def strippedRequestHeaders : List String :=
  [assertionHeader, edgeHostHeader, edgeSniHeader, edgeRequestIdHeader, edgeTokenHeader,
    "X-Custom-Domain-Reference", "X-Custom-Domain-Application"]

def healthPath : String := "/.well-known/custom-domain-edge-health"

def assertPath : String := "/internal/edge/assert"

/-- A list of texts. -/
def texts (items : List String) : Json := .arr (items.map .str)

/-- A placeholder that Caddy replaces. -/
def placeholder (name : String) : String := "\x7b" ++ name ++ "\x7d"

/-! ## Application routes -/

/-- `RouteGroup`. -/
structure RouteGroup where
  applicationSlug : String
  origin : String
  originHost : String
  originTls : Bool
  hostnames : List String
  perMinute : Option Int := none
  perSecond : Option Int := none
  hostHeader : String := "customer"
  originPort : Int := 443

/-- The handler that removes the reserved headers. -/
def stripHandler : Json :=
  .obj [("handler", .str "headers"),
    ("request", .obj [("delete", texts strippedRequestHeaders)])]

/-- `assertion_subrequest`. -/
def assertionSubrequest (settings : ConfigSettings) : Json :=
  let requestHeaders := [
      (edgeHostHeader, texts [placeholder "http.request.host"]),
      (edgeSniHeader, texts [placeholder "http.request.tls.server_name"]),
      (edgeRequestIdHeader, texts [placeholder "http.request.uuid"]),
      ("X-Forwarded-Method", texts [placeholder "http.request.method"]),
      ("X-Forwarded-Uri", texts [placeholder "http.request.uri"])] ++
    (settings.edgeToken.filter (· ≠ "")).toList.map fun token => (edgeTokenHeader, texts [token])
  .obj [
    ("handler", .str "reverse_proxy"),
    ("upstreams", .arr [.obj [("dial", .str settings.assertUpstream)]]),
    ("rewrite", .obj [("method", .str "GET"), ("uri", .str assertPath)]),
    ("headers", .obj [("request", .obj [("set", .obj requestHeaders)])]),
    ("handle_response", .arr [.obj [
      ("match", .obj [("status_code", .arr [.int 2])]),
      ("routes", .arr [.obj [("handle", .arr [.obj [
        ("handler", .str "headers"),
        ("request", .obj [("set", .obj [
          (assertionHeader,
            texts [placeholder ("http.reverse_proxy.header." ++ assertionHeader)])])])]])]])]])]

/-- `origin_host_value`. -/
def originHostValue (host : String) (port : Int) (tls : Bool) : String :=
  if port = (if tls then 443 else 80) then host else host ++ ":" ++ toString port

/-- The headers a request to an origin is sent with. -/
def originHeaders (host : String) : Json :=
  .obj [("request", .obj [("set", .obj [
    ("Host", texts [host]),
    ("X-Forwarded-Host", texts [placeholder "http.request.host"]),
    ("X-Forwarded-Proto", texts [placeholder "http.request.scheme"])])])]

/-- TLS to the origin, verified by its name. -/
def originTransport (host : String) : Json :=
  .obj [("protocol", .str "http"), ("tls", .obj [("server_name", .str host)])]

/-- `_origin_proxy`. -/
def originProxy (group : RouteGroup) : Json :=
  let host :=
    if group.hostHeader = "origin" then
      originHostValue group.originHost group.originPort group.originTls
    else placeholder "http.request.host"
  .obj ([
      ("handler", .str "reverse_proxy"),
      ("upstreams", .arr [.obj [("dial", .str group.origin)]]),
      ("headers", originHeaders host)] ++
    if group.originTls then [("transport", originTransport group.originHost)] else [])

def rateWindows : List (String × String) := [("minute", "1m"), ("second", "1s")]

/-- One zone of a rate limit, where there is a limit. -/
def rateZone (routeId name : String) (count : Option Int) : List (String × Json) :=
  (count.filter (· ≠ 0)).toList.map fun count =>
    (routeId ++ "-" ++ name, .obj [
      ("key", .str routeId),
      ("window", .str ((rateWindows.lookup name).getD "")),
      ("max_events", .int count)])

/-- `rate_limit_handler`. -/
def rateLimitHandler (routeId : String) (perMinute perSecond : Option Int) : Option Json :=
  let zones := rateZone routeId "minute" perMinute ++ rateZone routeId "second" perSecond
  if zones.isEmpty then none
  else some (.obj [("handler", .str "rate_limit"), ("rate_limits", .obj zones)])

/-- `_route`. -/
def route (group : RouteGroup) (settings : ConfigSettings) : Json :=
  let routeId := "app-" ++ group.applicationSlug
  let handle := [stripHandler, assertionSubrequest settings, originProxy group]
  .obj [
    ("@id", .str routeId),
    ("match", .arr [.obj [("host", texts group.hostnames)]]),
    ("handle",
      .arr ((rateLimitHandler routeId group.perMinute group.perSecond).toList ++ handle)),
    ("terminal", .bool true)]

/-! ## Routes on the edge's own names -/

/-- `allowlisted_routes_for`. -/
def allowlistedRoutesFor (name : String) (paths hosts ranges : List String) (upstream : String) :
    List Json :=
  if ranges = [] ∨ hosts = [] then []
  else [
    .obj [
      ("@id", .str name),
      ("match", .arr [.obj [
        ("host", texts hosts),
        ("path", texts paths),
        ("remote_ip", .obj [("ranges", texts ranges)])]]),
      ("handle", .arr [.obj [
        ("handler", .str "reverse_proxy"),
        ("upstreams", .arr [.obj [("dial", .str upstream)]]),
        ("headers", .obj [("request", .obj [("set", .obj [
          ("Host", texts [placeholder "http.request.host"])])])])]]),
      ("terminal", .bool true)],
    .obj [
      ("@id", .str (name ++ "-denied")),
      ("match", .arr [.obj [("host", texts hosts), ("path", texts paths)]]),
      ("handle", .arr [.obj [("handler", .str "static_response"), ("status_code", .int 403)]]),
      ("terminal", .bool true)]]

def portalPaths : List String := ["/portal", "/portal/*"]

/-- `portal_routes_for`. -/
def portalRoutesFor (hosts ranges : List String) (upstream : String) : List Json :=
  allowlistedRoutesFor "portal" portalPaths hosts ranges upstream

def operatorPaths : List String := ["/operator", "/operator/*"]

/-- `operator_routes_for`. -/
def operatorRoutesFor (hosts ranges : List String) (upstream : String) : List Json :=
  allowlistedRoutesFor "operator" operatorPaths hosts ranges upstream

def apiPaths : List String := ["/v1", "/v1/*"]

def connectPaths : List String := ["/connect/*"]

/-- `api_route_for`. -/
def apiRouteFor (hosts : List String) (upstream : String) : List Json :=
  if hosts = [] then []
  else [
    .obj [
      ("@id", .str "api"),
      ("match", .arr [.obj [("host", texts hosts), ("path", texts (apiPaths ++ connectPaths))]]),
      ("handle", .arr [
        stripHandler,
        .obj [
          ("handler", .str "reverse_proxy"),
          ("upstreams", .arr [.obj [("dial", .str upstream)]]),
          ("headers", .obj [("request", .obj [("set", .obj [
            ("Host", texts [placeholder "http.request.host"])])])])]]),
      ("terminal", .bool true)]]

/-- `portal_routes`. -/
def portalRoutes (settings : ConfigSettings) (hosts : List String) : Option (List Json) := do
  let ranges ← settings.portalRanges
  return portalRoutesFor hosts ranges settings.assertUpstream

/-- `operator_routes`. -/
def operatorRoutes (settings : ConfigSettings) (hosts : List String) : Option (List Json) := do
  let ranges ← settings.operatorRanges
  return operatorRoutesFor hosts ranges settings.assertUpstream

/-- `api_route`. -/
def apiRoute (settings : ConfigSettings) (hosts : List String) : List Json :=
  if settings.publicApi then apiRouteFor hosts settings.assertUpstream else []

/-! ## The apps -/

/-- `health_route`. -/
def healthRoute : Json :=
  .obj [
    ("@id", .str "edge-health"),
    ("match", .arr [.obj [("path", texts [healthPath])]]),
    ("handle", .arr [.obj [
      ("handler", .str "static_response"),
      ("status_code", .int 204),
      ("headers", .obj [(edgeHealthHeader, texts ["1"])])]]),
    ("terminal", .bool true)]

/-- `unmatched_route`. -/
def unmatchedRoute : Json :=
  .obj [
    ("@id", .str "edge-unmatched"),
    ("handle", .arr [.obj [("handler", .str "static_response"), ("status_code", .int 404)]]),
    ("terminal", .bool true)]

/-- The fields of `_server` besides its routes. -/
def serverOptions (settings : ConfigSettings) : List (String × Json) :=
  if settings.disableHttps then [("automatic_https", .obj [("disable", .bool true)])]
  else [("tls_connection_policies", .arr [.obj []]), ("strict_sni_host", .bool true)]

/-- `_server`. -/
def server (settings : ConfigSettings) (routes : List Json) : List (String × Json) :=
  [("listen", texts [":" ++ toString settings.httpsPort]),
    ("routes", .arr (healthRoute :: routes ++ [unmatchedRoute]))] ++ serverOptions settings

/-- `http_app`. -/
def httpApp (settings : ConfigSettings) (routes : List Json) : List (String × Json) :=
  [("servers", .obj [(serverName, .obj (server settings routes))]),
    ("metrics", .obj [("per_host", .bool true)])] ++
  (if settings.httpPort ≠ 80 then [("http_port", .int settings.httpPort)] else []) ++
  (if settings.httpsPort ≠ 443 then [("https_port", .int settings.httpsPort)] else [])

/-- The TLS automation: certificates are issued on demand, where the ask endpoint approves. -/
def tlsAutomation (settings : ConfigSettings) : Json :=
  .obj [("automation", .obj [
    ("on_demand", .obj [("permission",
      .obj [("module", .str "http"), ("endpoint", .str settings.askUrl)])]),
    ("policies", .arr [.obj [
      ("on_demand", .bool true),
      ("issuers", .arr [settings.tlsIssuerConfig])]])])]

/-- The apps with the given routes between the first and the last one. -/
def appsOf (settings : ConfigSettings) (routes : List Json) : Json :=
  .obj (("http", .obj (httpApp settings routes)) ::
    if settings.disableHttps then [] else [("tls", tlsAutomation settings)])

/-! ## The configuration equals itself -/

section Plain

variable {test : PyFloat → Bool}

theorem proper_texts (items : List String) : proper test (texts items) = true := by
  rw [texts, proper]
  induction items with
  | nil => rfl
  | cons first rest ih => simp [properItems, proper, ih]

theorem proper_stripHandler : proper test stripHandler = true := by
  simp [stripHandler, proper, properFields, lookup, proper_texts]

theorem proper_assertionSubrequest (settings : ConfigSettings) :
    proper test (assertionSubrequest settings) = true := by
  unfold assertionSubrequest
  cases settings.edgeToken.filter (· ≠ "") with
  | none =>
      simp [proper, properItems, properFields, lookup, proper_texts, edgeHostHeader, edgeSniHeader,
        edgeRequestIdHeader]
  | some token =>
      simp [proper, properItems, properFields, lookup, proper_texts, edgeHostHeader, edgeSniHeader,
        edgeRequestIdHeader, edgeTokenHeader]

theorem proper_originHeaders (host : String) : proper test (originHeaders host) = true := by
  simp [originHeaders, proper, properFields, lookup, proper_texts]

theorem proper_originProxy (group : RouteGroup) : proper test (originProxy group) = true := by
  cases tls : group.originTls <;>
    simp [originProxy, originTransport, tls, proper, properItems, properFields, lookup,
      proper_originHeaders]

theorem rateZone_name (routeId : String) : routeId ++ "-" ++ "second" ≠ routeId ++ "-" ++ "minute" := by
  intro same
  have texts := congrArg String.toList same
  simp [String.toList_append] at texts

theorem proper_rateLimitHandler {routeId : String} {perMinute perSecond : Option Int} {handler : Json}
    (limited : rateLimitHandler routeId perMinute perSecond = some handler) :
    proper test handler = true := by
  have names := rateZone_name routeId
  unfold rateLimitHandler at limited
  dsimp only at limited
  split at limited
  next => cases limited
  next =>
    cases limited
    unfold rateZone
    cases perMinute.filter (· ≠ 0) <;> cases perSecond.filter (· ≠ 0) <;>
      simp [proper, properFields, lookup, names]

theorem proper_route (group : RouteGroup) (settings : ConfigSettings) :
    proper test (route group settings) = true := by
  unfold route
  cases limited : rateLimitHandler ("app-" ++ group.applicationSlug) group.perMinute group.perSecond with
  | none =>
      simp [limited, proper, properItems, properFields, lookup, proper_texts, proper_stripHandler,
        proper_assertionSubrequest, proper_originProxy]
  | some handler =>
      simp [limited, proper, properItems, properFields, lookup, proper_texts, proper_stripHandler,
        proper_assertionSubrequest, proper_originProxy, proper_rateLimitHandler limited]

theorem proper_allowlistedRoutesFor (name : String) (paths hosts ranges : List String)
    (upstream : String) :
    ∀ route ∈ allowlistedRoutesFor name paths hosts ranges upstream, proper test route = true := by
  intro route member
  unfold allowlistedRoutesFor at member
  split at member
  next => cases member
  next =>
    rcases List.mem_pair.mp member with rfl | rfl <;>
      simp [proper, properItems, properFields, lookup, proper_texts]

theorem proper_apiRouteFor (hosts : List String) (upstream : String) :
    ∀ route ∈ apiRouteFor hosts upstream, proper test route = true := by
  intro route member
  unfold apiRouteFor at member
  split at member
  next => cases member
  next =>
    rw [List.mem_singleton.mp member]
    simp [proper, properItems, properFields, lookup, proper_texts, proper_stripHandler]

theorem proper_healthRoute : proper test healthRoute = true := by
  simp [healthRoute, proper, properItems, properFields, lookup, proper_texts]

theorem proper_unmatchedRoute : proper test unmatchedRoute = true := by
  simp [unmatchedRoute, proper, properItems, properFields, lookup]

theorem proper_tlsAutomation (settings : ConfigSettings) :
    proper test (tlsAutomation settings) = true := by
  unfold tlsAutomation ConfigSettings.tlsIssuerConfig
  split
  next => simp [proper, properItems, properFields, lookup]
  next =>
    cases settings.acmeEmail.filter (· ≠ "") <;> simp [proper, properItems, properFields, lookup]

theorem proper_server (settings : ConfigSettings) {routes : List Json}
    (each : ∀ route ∈ routes, proper test route = true) :
    properFields test (server settings routes) = true := by
  have between : properItems test (routes ++ [unmatchedRoute]) = true := by
    rw [Json.properItems_iff]
    intro route member
    rcases List.mem_append.mp member with inner | last
    · exact each route inner
    · rw [List.mem_singleton.mp last]
      exact proper_unmatchedRoute
  unfold server serverOptions
  cases settings.disableHttps <;>
    simp [proper, properItems, properFields, lookup, proper_texts, proper_healthRoute, between]

theorem proper_appsOf (settings : ConfigSettings) {routes : List Json}
    (each : ∀ route ∈ routes, proper test route = true) :
    proper test (appsOf settings routes) = true := by
  have http : properFields test (httpApp settings routes) = true := by
    unfold httpApp
    by_cases http : settings.httpPort = 80 <;> by_cases https : settings.httpsPort = 443 <;>
      simp [http, https, proper, properFields, lookup, proper_server settings each]
  unfold appsOf
  cases settings.disableHttps <;>
    simp [proper, properFields, lookup, http, proper_tlsAutomation]

end Plain

/-! ## Accepted settings -/

theorem of_demand_bind {met : Bool} {message : String} {next : Unit → Except String Unit}
    (ok : (EdgeSettings.demand met message >>= next) = .ok ()) : met = true ∧ next () = .ok () := by
  cases met with
  | false => cases ok
  | true => exact ⟨rfl, ok⟩

theorem forM_ok {check : String → Except String Unit} {entries : List String}
    (ok : entries.forM check = .ok ()) : ∀ entry ∈ entries, check entry = .ok () := by
  induction entries with
  | nil => simp
  | cons first rest ih =>
      rw [List.forM_eq_forM, List.forM_cons] at ok
      cases head : check first with
      | error message =>
          rw [head] at ok
          cases ok
      | ok done =>
          rw [head] at ok
          intro entry member
          rcases List.mem_cons.mp member with rfl | later
          · exact head
          · exact ih ok entry later

/-- Every entry of an allowlist is a network. -/
theorem EdgeSettings.networks_of_validate {settings : EdgeSettings} (valid : settings.validate = .ok ()) :
    (∀ entry ∈ settings.portalAllowedIps, (ipNetwork entry).isSome = true) ∧
      ∀ entry ∈ settings.operatorAllowedIps, (ipNetwork entry).isSome = true := by
  have known : ∀ {name entry : String}, validateEntry name entry = .ok () →
      (ipNetwork entry).isSome = true := by
    intro name entry ok
    unfold validateEntry at ok
    split at ok
    next => cases ok
    next => cases ok
    next found =>
      rw [found]
      rfl
  unfold validate at valid
  obtain ⟨-, valid⟩ := of_demand_bind valid
  cases redis : settings.validateRedis with
  | error message =>
      rw [redis] at valid
      cases valid
  | ok done =>
      rw [redis] at valid
      replace valid := (of_demand_bind valid).2
      replace valid := (of_demand_bind valid).2
      replace valid := (of_demand_bind valid).2
      replace valid := (of_demand_bind valid).2
      replace valid := (of_demand_bind valid).2
      replace valid := (of_demand_bind valid).2
      replace valid := (of_demand_bind valid).2
      replace valid := (of_demand_bind valid).2
      replace valid := (of_demand_bind valid).2
      cases portal : settings.portalAllowedIps.forM (validateEntry "PORTAL_ALLOWED_IPS") with
      | error message =>
          rw [portal] at valid
          cases valid
      | ok done =>
          rw [portal] at valid
          constructor
          · intro entry member
            exact known (forM_ok portal entry member)
          · intro entry member
            exact known (forM_ok valid entry member)

/-- What is a network for `validate` can be printed. -/
theorem networkText_isSome (text : String) :
    (networkText text).isSome = (ipNetwork text).isSome := by
  unfold networkText ipNetwork
  dsimp only
  generalize split '/' text = parts
  rcases parts with - | ⟨address, - | ⟨mask, - | more⟩⟩
  · rfl
  · dsimp only
    cases parseIpv4 address <;> cases parseIpv6 address <;> rfl
  · dsimp only
    cases parseIpv4 address <;> cases parseIpv6 address <;> cases prefixLength 32 mask <;>
      cases maskPrefix mask <;> cases prefixLength 128 mask <;> rfl
  · rfl

theorem ranges_isSome {entries : List String}
    (networks : ∀ entry ∈ entries, (ipNetwork entry).isSome = true) :
    (ranges entries).isSome = true := by
  unfold ranges
  induction entries with
  | nil => rfl
  | cons first rest ih =>
      have text := networkText_isSome first
      rw [networks first List.mem_cons_self] at text
      obtain ⟨shown, here⟩ := Option.isSome_iff_exists.mp text
      obtain ⟨others, there⟩ := Option.isSome_iff_exists.mp
        (ih fun entry member => networks entry (List.mem_cons_of_mem _ member))
      rw [List.mapM_cons, here, there]
      rfl

end CustomDomain
