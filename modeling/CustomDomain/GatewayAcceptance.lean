import CustomDomain.GatewayRoutes

/-!
# Documents that the gateway accepts

What `validate_apps` lets pass is what `build_apps` builds from some routes that the facts allow, but
for nulls that are left out.
-/

namespace CustomDomain.Gateway

open PythonText PythonJson
open Json (SingleValued eq_null isSome_lookup_of_key isNull lookup lookup_of_pyEq lookup_of_pyGet obj_of_pyEq
  pyEq pyEqItems pyEqItems_append pyEq_str pyGet unique_of_distinct)

/-! ## Routes on the edge's own names -/

/-- A route whose handlers have no transport. -/
def WithoutTransport (route : Json) : Prop :=
  ∃ (fields : List (String × Json)) (handlers : List (List (String × Json))),
    route = .obj fields ∧ lookup "handle" fields = some (.arr (handlers.map .obj)) ∧
    ∀ handler ∈ handlers, lookup "transport" handler = none

theorem map_withoutNull_of_pyEq {key : String} {items : List Json}
    {handlers : List (List (String × Json))} (equal : pyEqItems items (handlers.map .obj) = true)
    (absent : ∀ handler ∈ handlers, lookup key handler = none) :
    items.map (withoutNull key) = items := by
  induction items generalizing handlers with
  | nil => rfl
  | cons item items ih =>
      cases handlers with
      | nil => simp [pyEqItems] at equal
      | cons handler handlers =>
          rw [List.map_cons, pyEqItems, Bool.and_eq_true] at equal
          rw [List.map_cons, withoutNull_of_pyEq equal.1 (absent handler List.mem_cons_self),
            ih equal.2 fun other member => absent other (List.mem_cons_of_mem _ member)]

theorem cleanedRoute_of_pyEq {route expected : Json} (equal : pyEq route expected = true) (plain : WithoutTransport expected) :
    cleanedRoute route = route := by
  obtain ⟨there, handlers, rfl, handle, absent⟩ := plain
  obtain ⟨fields, rfl⟩ := obj_of_pyEq equal
  rw [cleanedRoute, changeField, Json.obj.injEq]
  refine (List.map_congr_left fun field member => ?_).trans (List.map_id fields)
  obtain ⟨name, value⟩ := field
  dsimp only
  split
  next at_ =>
    subst at_
    obtain ⟨other, found, same⟩ := (Json.pyEq_obj_iff.mp equal).1 _ member
    rw [handle, Option.some.injEq] at found
    subst found
    cases value with
    | arr items =>
        rw [pyEq] at same
        rw [changeItems, map_withoutNull_of_pyEq same absent]
        rfl
    | _ => simp [pyEq, Json.pyEqNumber, Json.number] at same
  next => rfl

theorem map_cleanedRoute {routes expected : List Json} (equal : pyEqItems routes expected = true)
    (plain : ∀ route ∈ expected, WithoutTransport route) : routes.map cleanedRoute = routes := by
  induction routes generalizing expected with
  | nil => rfl
  | cons route routes ih =>
      cases expected with
      | nil => simp [pyEqItems] at equal
      | cons first rest =>
          rw [pyEqItems, Bool.and_eq_true] at equal
          rw [List.map_cons, cleanedRoute_of_pyEq equal.1 (plain first List.mem_cons_self),
            ih equal.2 fun other member => plain other (List.mem_cons_of_mem _ member)]

theorem allowlistedRoutesFor_withoutTransport (name : String) (paths hosts ranges : List String)
    (upstream : String) : ∀ route ∈ allowlistedRoutesFor name paths hosts ranges upstream,
      WithoutTransport route := by
  intro route member
  unfold allowlistedRoutesFor at member
  split at member
  next => cases member
  next =>
    rcases List.mem_pair.mp member with rfl | rfl
    · exact ⟨_, [_], rfl, rfl, by simp [lookup]⟩
    · exact ⟨_, [_], rfl, rfl, by simp [lookup]⟩

theorem apiRouteFor_withoutTransport (hosts : List String) (upstream : String) :
    ∀ route ∈ apiRouteFor hosts upstream, WithoutTransport route := by
  intro route member
  unfold apiRouteFor at member
  split at member
  next => cases member
  next =>
    rw [List.mem_singleton.mp member]
    exact ⟨_, [_, _], rfl, rfl, by simp [lookup]⟩

theorem healthRoute_withoutTransport : WithoutTransport healthRoute :=
  ⟨_, [_], rfl, rfl, by simp [lookup]⟩

theorem unmatchedRoute_withoutTransport : WithoutTransport unmatchedRoute :=
  ⟨_, [_], rfl, rfl, by simp [lookup]⟩

/-- What is on the edge's own names: nothing, or what is built for some of them while it is allowed. -/
def OnEdgeNames (names : List String) (allowed : Prop) (built : List String → List Json)
    (routes : List Json) : Prop :=
  routes = [] ∨ allowed ∧ ∃ hosts, hosts ≠ [] ∧ (∀ host ∈ hosts, host ∈ names) ∧ routes = built hosts

theorem OnEdgeNames.withoutTransport {names : List String} {allowed : Prop}
    {built : List String → List Json} {routes : List Json} (on : OnEdgeNames names allowed built routes)
    (plain : ∀ hosts, ∀ route ∈ built hosts, WithoutTransport route) :
    ∀ route ∈ routes, WithoutTransport route := by
  rcases on with rfl | ⟨-, hosts, -, -, rfl⟩
  · simp
  · exact plain hosts

section Names

variable {facts : EdgeFacts}

theorem of_strangers {hosts : List Json} {names : List String}
    (ok : strangers hosts names = .ok false) : ∀ host ∈ hosts, ∃ name ∈ names, host = .str name := by
  rw [strangers, bind_ok] at ok
  obtain ⟨found, listed, none⟩ := ok
  have same : found = hosts := by
    unfold elements at listed
    dsimp only at listed
    split at listed
    next => cases listed; rfl
    next => cases listed
  subst same
  intro host member
  have known := List.any_eq_false.mp (Except.ok.inj none) host member
  rw [Bool.not_eq_true, Bool.not_eq_false', List.any_eq_true] at known
  obtain ⟨name, inside, equal⟩ := known
  exact ⟨name, inside, pyEq_str.mp equal⟩

theorem of_takeRoutes {allowed : Bool} {refusals : Refusals} {count : Nat}
    {expected : List String → List Json} {first : List (String × Json)} {middle rest : List Json}
    (ok : takeRoutes facts allowed refusals count expected first middle = .ok rest) :
    ∃ taken routes, middle = taken ++ rest ∧ pyEqItems taken routes = true ∧
      OnEdgeNames facts.edgeNames (allowed = true) expected routes := by
  rw [takeRoutes, refuse_bind, Bool.not_eq_false'] at ok
  obtain ⟨open_, ok⟩ := ok
  dsimp only at ok
  rw [refuse_bind, bind_ok] at ok
  obtain ⟨some_, strange, checked, ok⟩ := ok
  rw [refuse_bind, refuse_bind, Bool.not_eq_false'] at ok
  obtain ⟨rfl, equal, done⟩ := ok
  cases done
  have known := of_strangers checked
  refine ⟨_, _, (List.take_append_drop count middle).symm, equal, .inr ⟨open_, _, ?_, ?_, rfl⟩⟩
  · intro none
    obtain ⟨host, member⟩ := List.exists_mem_of_ne_nil _ (List.isEmpty_eq_false_iff.mp some_)
    obtain ⟨name, -, rfl⟩ := known host member
    have inside : name ∈ sortedHosts ((routeHosts first).getD []) := by
      rw [sortedHosts, List.mem_mergeSort, List.mem_filterMap]
      exact ⟨_, member, rfl⟩
    rw [none] at inside
    cases inside
  · intro name member
    rw [sortedHosts, List.mem_mergeSort, List.mem_filterMap] at member
    obtain ⟨host, inside, shown⟩ := member
    obtain ⟨other, vouched, rfl⟩ := known host inside
    cases shown
    exact vouched

variable {printing : Printing} {settings : ConfigSettings} {middle rest : List Json}

theorem of_takePortal (ok : takePortal printing settings facts middle = .ok rest) :
    ∃ taken routes, middle = taken ++ rest ∧ pyEqItems taken routes = true ∧
      OnEdgeNames facts.edgeNames (facts.portalRanges ≠ [])
        (fun hosts => portalRoutesFor hosts facts.portalRanges settings.assertUpstream) routes := by
  unfold takePortal at ok
  split at ok
  next first later =>
    split at ok
    next =>
      obtain ⟨taken, routes, whole, equal, on⟩ := of_takeRoutes ok
      refine ⟨taken, routes, whole, equal, on.imp_right fun shape => ⟨?_, shape.2⟩⟩
      have exposed := shape.1
      rw [Bool.not_eq_true', List.isEmpty_eq_false_iff] at exposed
      exact exposed
    next =>
      cases ok
      exact ⟨[], [], rfl, rfl, .inl rfl⟩
  next =>
    cases ok
    exact ⟨[], [], rfl, rfl, .inl rfl⟩

theorem of_takeOperator (ok : takeOperator settings facts middle = .ok rest) :
    ∃ taken routes, middle = taken ++ rest ∧ pyEqItems taken routes = true ∧
      OnEdgeNames facts.edgeNames (facts.operatorRanges ≠ [])
        (fun hosts => operatorRoutesFor hosts facts.operatorRanges settings.assertUpstream) routes := by
  unfold takeOperator at ok
  split at ok
  next first later =>
    split at ok
    next =>
      obtain ⟨taken, routes, whole, equal, on⟩ := of_takeRoutes ok
      refine ⟨taken, routes, whole, equal, on.imp_right fun shape => ⟨?_, shape.2⟩⟩
      have exposed := shape.1
      rw [Bool.not_eq_true', List.isEmpty_eq_false_iff] at exposed
      exact exposed
    next =>
      cases ok
      exact ⟨[], [], rfl, rfl, .inl rfl⟩
  next =>
    cases ok
    exact ⟨[], [], rfl, rfl, .inl rfl⟩

theorem of_takeApi (ok : takeApi settings facts middle = .ok rest) :
    ∃ taken routes, middle = taken ++ rest ∧ pyEqItems taken routes = true ∧
      OnEdgeNames facts.edgeNames (facts.publicApi = true)
        (fun hosts => apiRouteFor hosts settings.assertUpstream) routes := by
  unfold takeApi at ok
  split at ok
  next first later =>
    split at ok
    next => exact of_takeRoutes ok
    next =>
      cases ok
      exact ⟨[], [], rfl, rfl, .inl rfl⟩
  next =>
    cases ok
    exact ⟨[], [], rfl, rfl, .inl rfl⟩

end Names

/-! ## The whole document -/

section Document

variable {printing : Printing} {settings : ConfigSettings}

theorem of_validateFields {reason : String → Json → String} {expected fields : List (String × Json)}
    {but : String} (ok : validateFields reason expected but fields = .ok ()) :
    ∀ field ∈ expected, field.1 ≠ but → pyEq (pyGet field.1 fields) field.2 = true := by
  intro field member other
  have passed := forM_unit_ok ok field member
  rw [refuse_ok, decide_eq_true other, Bool.true_and, Bool.not_eq_false'] at passed
  exact passed

theorem lookup_httpApp {routes : List Json} {name : String} (other : name ≠ "servers") :
    lookup name (httpApp settings routes) = lookup name (httpApp settings []) := by
  simp only [httpApp, List.cons_append, lookup, if_neg (Ne.symm other)]

theorem lookup_server {routes : List Json} {name : String} (other : name ≠ "routes") :
    lookup name (server settings routes) = lookup name (server settings []) := by
  simp only [server, List.cons_append, lookup, if_neg (Ne.symm other)]

theorem httpApp_keys (routes : List Json) :
    (httpApp settings routes).map (·.1) = (httpApp settings []).map (·.1) := rfl

theorem server_keys (routes : List Json) :
    (server settings routes).map (·.1) = (server settings []).map (·.1) := rfl

theorem server_ne_null {routes : List Json} {name : String} {value : Json}
    (found : lookup name (server settings routes) = some value) : value ≠ .null := by
  have member := Json.mem_of_lookup found
  unfold server serverOptions at member
  cases https : settings.disableHttps with
  | true =>
      simp only [https, if_true, List.cons_append, List.nil_append, List.mem_cons, Prod.mk.injEq,
        List.not_mem_nil, or_false] at member
      rcases member with ⟨-, rfl⟩ | ⟨-, rfl⟩ | ⟨-, rfl⟩ <;> simp [texts]
  | false =>
      simp only [https, Bool.false_eq_true, if_false, List.cons_append, List.nil_append, List.mem_cons,
        Prod.mk.injEq, List.not_mem_nil, or_false] at member
      rcases member with ⟨-, rfl⟩ | ⟨-, rfl⟩ | ⟨-, rfl⟩ | ⟨-, rfl⟩ <;> simp [texts]

/-- The way down to the routes, with everything beside it as it is expected. -/
structure Framed (settings : ConfigSettings) (apps : List (String × Json)) (routes : List Json) where
  http : List (String × Json)
  servers : List (String × Json)
  fields : List (String × Json)
  appKeys : ∀ field ∈ apps, field.1 = "http" ∨ field.1 = "tls"
  httpFound : pyGet "http" apps = .obj http
  httpKeys : sameKeys http ((httpApp settings []).map (·.1)) = true
  httpValues : ∀ field ∈ httpApp settings [], field.1 ≠ "servers" →
    pyEq (pyGet field.1 http) field.2 = true
  serversFound : pyGet "servers" http = .obj servers
  serversKeys : sameKeys servers [serverName] = true
  serverFound : pyGet serverName servers = .obj fields
  serverKeys : ∀ field ∈ fields, field.1 ∈ (server settings []).map (·.1)
  serverValues : ∀ field ∈ server settings [], field.1 ≠ "routes" →
    pyEq (pyGet field.1 fields) field.2 = true
  routesFound : pyGet "routes" fields = .arr routes
  two : 2 ≤ routes.length

theorem of_serverRoutes {apps : List (String × Json)} {routes : List Json}
    (ok : serverRoutes printing settings apps = .ok routes) : Nonempty (Framed settings apps routes) := by
  rw [serverRoutes, refuse_bind] at ok
  obtain ⟨appKeys, ok⟩ := ok
  dsimp only at ok
  split at ok
  next http httpFound =>
    rw [refuse_bind, Bool.not_eq_false', bind_ok] at ok
    obtain ⟨httpKeys, _, httpValues, ok⟩ := ok
    split at ok
    next servers serversFound =>
      rw [refuse_bind, Bool.not_eq_false'] at ok
      obtain ⟨serversKeys, ok⟩ := ok
      split at ok
      next fields serverFound =>
        rw [refuse_bind, bind_ok] at ok
        obtain ⟨serverKeys, _, serverValues, ok⟩ := ok
        split at ok
        next found routesFound =>
          rw [refuse_bind, decide_eq_false_iff_not, Nat.not_lt] at ok
          obtain ⟨two, done⟩ := ok
          cases done
          refine ⟨⟨http, servers, fields, fun field member => ?_, httpFound, httpKeys,
            of_validateFields httpValues, serversFound, serversKeys, serverFound, fun field member => ?_,
            of_validateFields serverValues, routesFound, two⟩⟩
          · have known := List.any_eq_false.mp appKeys field member
            rw [Bool.not_eq_true, Bool.not_eq_false', List.contains_iff_mem] at known
            exact List.mem_pair.mp known
          · have known := List.any_eq_false.mp serverKeys field member
            rwa [Bool.not_eq_true, Bool.not_eq_false', List.contains_iff_mem] at known
        next => cases ok
      next => cases ok
    next => cases ok
  next => cases ok

theorem of_middleRoutes {routes middle : List Json} (two : 2 ≤ routes.length)
    (ok : middleRoutes routes = .ok middle) :
    ∃ first last, routes = first :: middle ++ [last] ∧ pyEq first healthRoute = true ∧
      pyEq last unmatchedRoute = true := by
  rw [middleRoutes, refuse_bind, refuse_bind, Bool.not_eq_false', Bool.not_eq_false'] at ok
  obtain ⟨health, unmatched, done⟩ := ok
  cases done
  cases routes with
  | nil => cases two
  | cons first rest =>
      have some_ : rest ≠ [] := by
        rintro rfl
        simp at two
      refine ⟨first, rest.getLast some_, ?_, by simpa using health, ?_⟩
      · rw [List.tail_cons, List.cons_append, List.dropLast_append_getLast]
      · rw [List.getLast?_cons, Option.any_some] at unmatched
        rw [List.getLast?_eq_some_getLast some_, Option.getD_some] at unmatched
        exact unmatched

/-- The server, its routes without null transports, is the one that is built. -/
theorem Framed.server {apps : List (String × Json)} {routes built : List Json}
    (framed : Framed settings apps routes) (distinct : (Json.obj framed.fields).distinct = true)
    (equal : pyEqItems (routes.map cleanedRoute) (healthRoute :: built ++ [unmatchedRoute]) = true) :
    pyEq (changeField "routes" (changeItems cleanedRoute) (.obj framed.fields))
      (.obj (CustomDomain.server settings built)) = true := by
  apply pyEq_changeField (unique_of_distinct distinct)
  · intro field member
    have known := framed.serverKeys field member
    rw [← server_keys built] at known
    exact isSome_lookup_of_key known
  · intro field member
    by_cases which : field.1 = "routes"
    · rw [which, lookup_of_pyGet]
      · rfl
      · rw [framed.routesFound]
        simp
    · obtain ⟨value, found⟩ := Option.isSome_iff_exists.mp (Json.isSome_lookup_of_mem member)
      have notNull := server_ne_null found
      rw [lookup_server which] at found
      have same := framed.serverValues _ (Json.mem_of_lookup found) which
      rw [(lookup_of_pyEq same notNull).1]
      rfl
  · intro name value found other
    rw [lookup_server other] at found
    exact framed.serverValues _ (Json.mem_of_lookup found) other
  · intro value found
    have shape : lookup "routes" (CustomDomain.server settings built) =
        some (.arr (healthRoute :: built ++ [unmatchedRoute])) := rfl
    rw [shape, Option.some.injEq] at found
    rw [← found, framed.routesFound, changeItems, pyEq]
    exact equal

theorem pyGet_changeField {fields : List (String × Json)} {key : String} {change : Json → Json}
    (there : pyGet key fields ≠ .null) (name : String) :
    pyGet name (fields.map fun field => (field.1, if field.1 = key then change field.2 else field.2)) =
      if name = key then change (pyGet key fields) else pyGet name fields := by
  rw [pyGet, lookup_changeField]
  split
  next same => rw [same, lookup_of_pyGet there, Option.map_some, Option.getD_some]
  next =>
    rw [pyGet]
    cases lookup name fields <;> rfl

theorem Framed.routes_distinct {apps : List (String × Json)} {routes : List Json}
    (framed : Framed settings apps routes) (distinct : (Json.obj apps).distinct = true) :
    ∀ route ∈ routes, route.distinct = true := by
  have inside : ∀ {fields : List (String × Json)} {key value}, (Json.obj fields).distinct = true →
      pyGet key fields = value → value ≠ .null → value.distinct = true := by
    intro fields key value whole found notNull
    have there : lookup key fields = some (pyGet key fields) :=
      lookup_of_pyGet (by rw [found]; exact notNull)
    rw [found] at there
    exact Json.proper_of_lookup whole there
  have http := inside distinct framed.httpFound (by simp)
  have servers := inside http framed.serversFound (by simp)
  have server := inside servers framed.serverFound (by simp)
  exact Json.proper_of_mem_items (inside server framed.routesFound (by simp))

/-- The document without null transports and a null TLS app is the one that is built. -/
theorem Framed.apps {apps : List (String × Json)} {routes built : List Json}
    (framed : Framed settings apps routes) (distinct : (Json.obj apps).distinct = true)
    (equal : pyEqItems (routes.map cleanedRoute) (healthRoute :: built ++ [unmatchedRoute]) = true)
    (tls : validateTls settings apps = .ok ()) :
    pyEq (cleaned (.obj apps)) (appsOf settings built) = true := by
  have inside : ∀ {fields : List (String × Json)} {key value}, (Json.obj fields).distinct = true →
      pyGet key fields = .obj value → (Json.obj value).distinct = true := by
    intro fields key value whole found
    have there : lookup key fields = some (pyGet key fields) := lookup_of_pyGet (by rw [found]; simp)
    rw [found] at there
    exact Json.proper_of_lookup whole there
  have httpDistinct := inside distinct framed.httpFound
  have serversDistinct := inside httpDistinct framed.serversFound
  have serverDistinct := inside serversDistinct framed.serverFound
  have servers : pyEq (changeField serverName (changeField "routes" (changeItems cleanedRoute))
      (.obj framed.servers)) (.obj [(serverName, .obj (CustomDomain.server settings built))]) = true := by
    apply pyEq_changeField (unique_of_distinct serversDistinct)
    · intro field member
      rw [List.mem_singleton.mp ((sameKeys_iff.mp framed.serversKeys).1 field member)]
      rfl
    · intro field member
      rw [List.mem_singleton.mp member]
      exact (sameKeys_iff.mp framed.serversKeys).2 _ List.mem_cons_self
    · intro name value found other
      have same := List.mem_singleton.mp (Json.mem_of_lookup found)
      exact absurd (congrArg Prod.fst same) other
    · intro value found
      rw [lookup, if_pos rfl, Option.some.injEq] at found
      rw [← found, framed.serverFound]
      exact framed.server serverDistinct equal
  have http : pyEq (changeField "servers" (changeField serverName (changeField "routes"
      (changeItems cleanedRoute))) (.obj framed.http)) (.obj (httpApp settings built)) = true := by
    apply pyEq_changeField (unique_of_distinct httpDistinct)
    · intro field member
      have known := (sameKeys_iff.mp framed.httpKeys).1 field member
      rw [← httpApp_keys built] at known
      exact isSome_lookup_of_key known
    · intro field member
      apply (sameKeys_iff.mp framed.httpKeys).2
      rw [← httpApp_keys built]
      exact List.mem_map_of_mem member
    · intro name value found other
      rw [lookup_httpApp other] at found
      exact framed.httpValues _ (Json.mem_of_lookup found) other
    · intro value found
      have shape : lookup "servers" (httpApp settings built) =
          some (.obj [(serverName, .obj (CustomDomain.server settings built))]) := rfl
      rw [shape, Option.some.injEq] at found
      rw [← found, framed.serversFound]
      exact servers
  have there : pyGet "http" apps ≠ .null := by
    rw [framed.httpFound]
    simp
  have tlsValue : if settings.disableHttps then pyGet "tls" apps = .null
      else pyEq (pyGet "tls" apps) (tlsAutomation settings) = true := by
    rw [validateTls] at tls
    split at tls
    next off =>
      rw [refuse_ok, Bool.not_eq_false'] at tls
      rw [if_pos off]
      exact eq_null tls
    next on =>
      rw [refuse_ok, Bool.not_eq_false'] at tls
      rw [if_neg on]
      exact tls
  rw [cleaned, changeField, appsOf]
  apply pyEq_withoutNull (unique_changeField (unique_of_distinct distinct))
  · intro field member
    obtain ⟨old, known, rfl⟩ := List.mem_map.mp member
    rcases framed.appKeys old known with name | name
    · exact .inr (by rw [name]; rfl)
    · exact .inl name
  · intro absent
    rw [pyGet_changeField there, if_neg (by decide)]
    cases off : settings.disableHttps with
    | true => rwa [off, if_pos rfl] at tlsValue
    | false => simp [off, lookup] at absent
  · intro name value found
    rw [pyGet_changeField there]
    rcases List.mem_cons.mp (Json.mem_of_lookup found) with same | later
    · cases same
      rw [if_pos rfl, framed.httpFound]
      exact ⟨by simp, http⟩
    · cases off : settings.disableHttps with
      | true => simp [off] at later
      | false =>
          rw [off] at later tlsValue
          have same := List.mem_singleton.mp later
          cases same
          rw [if_neg (by decide)]
          exact ⟨by simp [tlsAutomation], tlsValue⟩

/-- What `validate_apps` makes of an object. -/
theorem of_validateApps {tables : NameTables} {facts : EdgeFacts} {fields : List (String × Json)}
    (distinct : (Json.obj fields).distinct = true)
    (accepted : validateApps printing settings tables facts (.obj fields) = .ok ()) :
    ∃ (portal operator api : List Json) (groups : List RouteGroup),
      OnEdgeNames facts.edgeNames (facts.portalRanges ≠ [])
        (fun hosts => portalRoutesFor hosts facts.portalRanges settings.assertUpstream) portal ∧
      OnEdgeNames facts.edgeNames (facts.operatorRanges ≠ [])
        (fun hosts => operatorRoutesFor hosts facts.operatorRanges settings.assertUpstream) operator ∧
      OnEdgeNames facts.edgeNames (facts.publicApi = true)
        (fun hosts => apiRouteFor hosts settings.assertUpstream) api ∧
      (∀ group ∈ groups, Vouched tables facts.upstreams group) ∧
      (groups.flatMap (·.hostnames)).Nodup ∧
      pyEq (cleaned (.obj fields)) (appsOf settings (portal ++ operator ++ api ++
        groups.map fun group => CustomDomain.route group settings)) = true := by
  rw [validateApps, bind_ok] at accepted
  obtain ⟨routes, framing, accepted⟩ := accepted
  rw [bind_ok] at accepted
  obtain ⟨middle, between, accepted⟩ := accepted
  rw [bind_ok] at accepted
  obtain ⟨afterPortal, portals, accepted⟩ := accepted
  rw [bind_ok] at accepted
  obtain ⟨afterOperator, operators, accepted⟩ := accepted
  rw [bind_ok] at accepted
  obtain ⟨application, apis, accepted⟩ := accepted
  rw [bind_ok] at accepted
  obtain ⟨hosts, checked, tls⟩ := accepted
  obtain ⟨framed⟩ := of_serverRoutes framing
  obtain ⟨first, last, rfl, health, unmatched⟩ := of_middleRoutes framed.two between
  obtain ⟨portalTaken, portal, rfl, portalEqual, portalOn⟩ := of_takePortal portals
  obtain ⟨operatorTaken, operator, rfl, operatorEqual, operatorOn⟩ := of_takeOperator operators
  obtain ⟨apiTaken, api, rfl, apiEqual, apiOn⟩ := of_takeApi apis
  have each := framed.routes_distinct distinct
  obtain ⟨groups, vouched, rfl, fresh, groupsEqual⟩ := of_validateAppRoutes
    (fun route member => each route (by simp [member])) checked
  refine ⟨portal, operator, api, groups, portalOn, operatorOn, apiOn, vouched, ?_, ?_⟩
  · simpa using fresh List.nodup_nil
  · apply framed.apps distinct _ tls
    have portalClean := map_cleanedRoute portalEqual (portalOn.withoutTransport fun hosts =>
      allowlistedRoutesFor_withoutTransport _ _ hosts _ _)
    have operatorClean := map_cleanedRoute operatorEqual (operatorOn.withoutTransport fun hosts =>
      allowlistedRoutesFor_withoutTransport _ _ hosts _ _)
    have apiClean := map_cleanedRoute apiEqual (apiOn.withoutTransport fun hosts =>
      apiRouteFor_withoutTransport hosts _)
    have middle : pyEqItems
        ((portalTaken ++ (operatorTaken ++ (apiTaken ++ application))).map cleanedRoute)
        (portal ++ operator ++ api ++
          groups.map fun group => CustomDomain.route group settings) = true := by
      rw [List.map_append, List.map_append, List.map_append, portalClean, operatorClean, apiClean,
        List.append_assoc, List.append_assoc]
      exact pyEqItems_append portalEqual
        (pyEqItems_append operatorEqual (pyEqItems_append apiEqual groupsEqual))
    rw [List.map_append, List.map_cons, List.map_singleton,
      cleanedRoute_of_pyEq health healthRoute_withoutTransport,
      cleanedRoute_of_pyEq unmatched unmatchedRoute_withoutTransport]
    apply pyEqItems_append
    · rw [pyEqItems, health, middle]
      rfl
    · rw [pyEqItems, unmatched]
      rfl

end Document

/-- An accepted document is, up to equality in Python and nulls that are left out, the configuration
with these routes: on the edge's own names what is built for them while the facts allow it, then the
routes of groups whose dial and origin name the facts vouch for, without a hostname in two of them. -/
theorem accepted_configuration {tables : NameTables} {printing : Printing} {settings : ConfigSettings}
    {facts : EdgeFacts} {apps : Json} (distinct : apps.distinct = true)
    (accepted : validateApps printing settings tables facts apps = .ok ()) :
    ∃ (portal operator api : List Json) (groups : List RouteGroup),
      OnEdgeNames facts.edgeNames (facts.portalRanges ≠ [])
        (fun hosts => portalRoutesFor hosts facts.portalRanges settings.assertUpstream) portal ∧
      OnEdgeNames facts.edgeNames (facts.operatorRanges ≠ [])
        (fun hosts => operatorRoutesFor hosts facts.operatorRanges settings.assertUpstream) operator ∧
      OnEdgeNames facts.edgeNames (facts.publicApi = true)
        (fun hosts => apiRouteFor hosts settings.assertUpstream) api ∧
      (∀ group ∈ groups, Vouched tables facts.upstreams group) ∧
      (groups.flatMap (·.hostnames)).Nodup ∧
      pyEq (cleaned apps) (appsOf settings (portal ++ operator ++ api ++
        groups.map fun group => CustomDomain.route group settings)) = true := by
  cases apps with
  | obj fields => exact of_validateApps distinct accepted
  | _ => cases accepted

def samplePrinting : Printing where
  quoted text := "'" ++ text ++ "'"
  magnitude _ := (0, ".0")
  items _ := ""
  fields _ := ""

def sampleGroup : RouteGroup where
  applicationSlug := "acme"
  origin := "93.184.216.34:443"
  originHost := "app.example.com"
  originTls := true
  hostnames := ["forms.example.com"]
  perMinute := some 600

def sampleFacts : EdgeFacts where
  upstreams := [("93.184.216.34:443", "app.example.com")]

/-- A document for an edge without HTTPS, with a null TLS app. -/
def nullTlsApps : Json :=
  .obj [("http", .obj (httpApp { disableHttps := true } [CustomDomain.route sampleGroup {}])),
    ("tls", .null)]

theorem accepted_configuration_nullTls :
    ∃ (portal operator api : List Json) (groups : List RouteGroup),
      (∀ group ∈ groups, Vouched sampleEnvironment.tables sampleFacts.upstreams group) ∧
      pyEq (cleaned nullTlsApps) (appsOf { disableHttps := true } (portal ++ operator ++ api ++
        groups.map fun group => CustomDomain.route group { disableHttps := true })) = true := by
  have passes : (validateApps samplePrinting { disableHttps := true } sampleEnvironment.tables sampleFacts
      nullTlsApps).isOk = true := by decide +kernel
  have accepted : validateApps samplePrinting { disableHttps := true } sampleEnvironment.tables
      sampleFacts nullTlsApps = .ok () := by
    cases ended : validateApps samplePrinting { disableHttps := true } sampleEnvironment.tables
        sampleFacts nullTlsApps with
    | ok done => rfl
    | error stop =>
        rw [ended] at passes
        cases passes
  obtain ⟨portal, operator, api, groups, -, -, -, vouched, -, equal⟩ :=
    accepted_configuration (by decide +kernel) accepted
  exact ⟨portal, operator, api, groups, vouched, equal⟩

end CustomDomain.Gateway
