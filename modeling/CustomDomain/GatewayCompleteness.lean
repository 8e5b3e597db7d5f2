import CustomDomain.GatewayAcceptance
import CustomDomain.RouteGroups

/-!
# What the gateway makes of a built configuration

`validate_apps` on what `build_apps` builds: the routes on the edge's own names pass, and the routes of
the applications where every dial is known by a name that serves for its origin.
-/

namespace CustomDomain.Gateway

open PythonText PythonJson
open Json (isNull lookup pyEq pyEqItems pyEq_refl pyEq_str pyGet)

/-! ## Application routes -/

@[simp] theorem ok_bind {α β : Type} (value : α) (next : α → Checked β) :
    ((.ok value : Checked α) >>= next) = next value := rfl

@[simp] theorem refuse_false (reason : String) : refuse false reason = .ok () := rfl

theorem startsWith_append (start rest : String) : startsWith start (start ++ rest) = true := by
  rw [startsWith, String.toList_append, List.isPrefixOf_iff_prefix]
  exact List.prefix_append _ _

theorem removePrefix_append (start rest : String) : removePrefix start (start ++ rest) = rest := by
  apply String.toList_injective
  rw [removePrefix, if_pos (startsWith_append start rest), String.toList_ofList, String.toList_append,
    ← String.length_toList, List.drop_left]

section Built

variable {tables : NameTables} {printing : Printing} {settings : ConfigSettings}

theorem namedRoute_route (printing : Printing) (settings : ConfigSettings) (group : RouteGroup) :
    ∃ fields, CustomDomain.route group settings = .obj fields ∧
      namedRoute printing (CustomDomain.route group settings) =
        .ok ⟨"app-" ++ group.applicationSlug, fields⟩ ∧
      pyGet "match" fields = .arr [.obj [("host", texts group.hostnames)]] ∧
      pyGet "handle" fields = .arr ((rateLimitHandler ("app-" ++ group.applicationSlug)
        group.perMinute group.perSecond).toList ++
          [stripHandler, assertionSubrequest settings, originProxy group]) := by
  refine ⟨_, rfl, ?_, rfl, rfl⟩
  have name : startsWith "app-" ("app-" ++ group.applicationSlug) = true := startsWith_append _ _
  simp [CustomDomain.route, namedRoute, sameKeys, lookup, pyGet, Printing.str, name]

theorem singleField_built (key reason : String) (inner : Json) :
    singleField key reason (.arr [.obj [(key, inner)]]) = .ok inner := by
  simp [singleField, onlyElement, elements, subscript, lookup, pyEq]

theorem hostList_texts {names : List String} (some_ : names ≠ []) :
    hostList (texts names) = .ok (names.map .str) := by
  cases names with
  | nil => exact absurd rfl some_
  | cons first rest => rfl

theorem validateHostItems_names {names seen : List String}
    (canonical : ∀ name ∈ names, canonicalize tables name false = .ok name)
    (fresh : (seen ++ names).Nodup) :
    validateHostItems tables printing seen (names.map .str) = .ok (seen ++ names) := by
  induction names generalizing seen with
  | nil => rw [List.map_nil, validateHostItems, List.append_nil]
  | cons name names ih =>
      have absent : name ∉ seen := by
        intro inside
        exact (List.nodup_append.mp fresh).2.2 name inside name List.mem_cons_self rfl
      rw [List.map_cons, validateHostItems, Printing.str, canonical name List.mem_cons_self]
      simp only [pyEq, beq_self_eq_true, Bool.not_true, Bool.false_or, List.contains_iff_mem, absent,
        if_false]
      rw [ih (fun other member => canonical other (List.mem_cons_of_mem _ member)) (by simpa using fresh),
        List.append_assoc, List.singleton_append]

theorem validateZone_built {routeId name window : String} {count : Int}
    (known : rateWindows.lookup name = some window) (range : 1 ≤ count ∧ count ≤ maxRate) :
    validateZone printing routeId (routeId ++ "-" ++ name) (zoneOf routeId window count) = .ok () := by
  have equal : pyEq (zoneOf routeId window count) (zoneOf routeId window count) = true :=
    pyEq_refl _ (by simp [zoneOf, Json.plain, Json.proper, Json.properFields, lookup])
  unfold validateZone
  rw [removePrefix_append]
  dsimp only
  rw [known]
  show (refuse (!startsWith (routeId ++ "-") (routeId ++ "-" ++ name)) _ >>= fun _ =>
    refuse (!pyEq (zoneOf routeId window count) (zoneOf routeId window count) ||
      !decide (1 ≤ count ∧ count ≤ maxRate)) _) = .ok ()
  rw [startsWith_append, equal, decide_eq_true range]
  rfl

theorem validateRateLimit_zones {routeId : String} {zones : List (String × Json)} (some_ : zones ≠ [])
    (each : ∀ zone ∈ zones, validateZone printing routeId zone.1 zone.2 = .ok ()) :
    validateRateLimit printing routeId
      (.obj [("handler", .str "rate_limit"), ("rate_limits", .obj zones)]) = .ok () := by
  cases zones with
  | nil => exact absurd rfl some_
  | cons first rest =>
      show ((first :: rest).forM fun zone => validateZone printing routeId zone.1 zone.2) = .ok ()
      generalize first :: rest = zones at each
      induction zones with
      | nil => rfl
      | cons zone zones ih =>
          rw [List.forM_eq_forM, List.forM_cons, each zone List.mem_cons_self]
          exact ih fun other member => each other (List.mem_cons_of_mem _ member)

/-- The handlers of a built route. -/
theorem standardHandlers_built {routeId : String} {perMinute perSecond : Option Int}
    (strip assert_ proxy : Json) (minute : ∀ rate ∈ perMinute, 1 ≤ rate ∧ rate ≤ maxRate)
    (second : ∀ rate ∈ perSecond, 1 ≤ rate ∧ rate ≤ maxRate) :
    standardHandlers printing routeId
      (.arr ((rateLimitHandler routeId perMinute perSecond).toList ++ [strip, assert_, proxy])) =
        .ok (strip, assert_, proxy) := by
  cases limited : rateLimitHandler routeId perMinute perSecond with
  | none => rfl
  | some handler =>
      have passes : validateRateLimit printing routeId handler = .ok () := by
        unfold rateLimitHandler at limited
        dsimp only at limited
        split at limited
        next => cases limited
        next some_ =>
          cases limited
          apply validateRateLimit_zones (by simpa using some_)
          intro zone member
          rw [rateZone_eq fun rate member => (minute rate member).1,
            rateZone_eq fun rate member => (second rate member).1] at member
          rcases List.mem_append.mp member with one | two
          · obtain ⟨count, known, rfl⟩ := List.mem_map.mp one
            exact validateZone_built rfl (minute count (Option.mem_toList.mp known))
          · obtain ⟨count, known, rfl⟩ := List.mem_map.mp two
            exact validateZone_built rfl (second count (Option.mem_toList.mp known))
      show (validateRateLimit printing routeId handler >>= fun _ => _) = _
      rw [passes]
      rfl

/-- The name that is kept for a dial serves for the origin of a group: it is the origin's, or nothing
that is sent to the origin depends on it. -/
def Serves (group : RouteGroup) (host : String) : Prop :=
  host = group.originHost ∨ group.originTls = false ∧ group.hostHeader ≠ "origin"

/-- The fields of the proxy that is built. -/
def proxyParts (group : RouteGroup) : List (String × Json) :=
  [("handler", .str "reverse_proxy"),
    ("upstreams", .arr [.obj [("dial", .str group.origin)]]),
    ("headers", originHeaders (if group.hostHeader = "origin" then
      originHostValue group.originHost group.originPort group.originTls
      else placeholder "http.request.host"))] ++
  if group.originTls then [("transport", originTransport group.originHost)] else []

theorem proxyFields_originProxy (group : RouteGroup) :
    proxyFields printing (originProxy group) = .ok (proxyParts group) := by
  have same : originProxy group = .obj (proxyParts group) := rfl
  rw [same]
  cases tls : group.originTls <;>
    simp [proxyFields, proxyParts, tls, pyGet, lookup, pyEq]

theorem pyGet_transport (group : RouteGroup) : pyGet "transport" (proxyParts group) =
    if group.originTls then originTransport group.originHost else .null := by
  cases tls : group.originTls <;> simp [proxyParts, tls, pyGet, lookup]

theorem texts_inj {first second : String} (equal : pyEq (texts [first]) (texts [second]) = true) :
    first = second := by
  simpa [texts, pyEq, pyEqItems] using equal

theorem originHeaders_inj {first second : String}
    (equal : pyEq (originHeaders first) (originHeaders second) = true) : first = second := by
  obtain ⟨request, found, same⟩ := (Json.pyEq_obj_iff.mp equal).1 _ List.mem_cons_self
  rw [lookup, if_pos rfl, Option.some.injEq] at found
  rw [← found] at same
  obtain ⟨headers, found, same⟩ := (Json.pyEq_obj_iff.mp same).1 _ List.mem_cons_self
  rw [lookup, if_pos rfl, Option.some.injEq] at found
  rw [← found] at same
  obtain ⟨host, found, same⟩ := (Json.pyEq_obj_iff.mp same).1 _ List.mem_cons_self
  rw [lookup, if_pos rfl, Option.some.injEq] at found
  rw [← found] at same
  exact texts_inj same

theorem originTransport_inj {first second : String}
    (equal : pyEq (originTransport first) (originTransport second) = true) : first = second := by
  simpa [originTransport, pyEq, Json.pyEqFields, lookup] using equal

theorem originHostValue_inj {first second : String} {port : Int} {tls : Bool}
    (same : originHostValue first port tls = originHostValue second port tls) : first = second := by
  unfold originHostValue at same
  by_cases default : port = if tls then 443 else 80
  · rwa [if_pos default, if_pos default] at same
  · rw [if_neg default, if_neg default, String.append_assoc, String.append_assoc] at same
    exact (String.append_left_inj _).mp same

theorem originHostValue_ne {host : String} {port : Int} {tls : Bool}
    (named : host ≠ placeholder "http.request.host") :
    originHostValue host port tls ≠ placeholder "http.request.host" := by
  unfold originHostValue
  by_cases default : port = if tls then 443 else 80
  · rwa [if_pos default]
  · rw [if_neg default]
    intro same
    have colon : ':' ∈ (placeholder "http.request.host").toList := by
      rw [← same, String.toList_append, String.toList_append]
      simp
    revert colon
    decide

/-- The proxy of a group passes with the names that serve for its origin, and with no others. -/
theorem validateProxy_built {group : RouteGroup} {host : String}
    (named : group.originHost ≠ placeholder "http.request.host") :
    validateProxy (proxyParts group) host group.originPort = .ok () ↔ Serves group host := by
  have headers : pyGet "headers" (proxyParts group) =
      originHeaders (if group.hostHeader = "origin" then
        originHostValue group.originHost group.originPort group.originTls
        else placeholder "http.request.host") := rfl
  have secure : (!isNull (pyGet "transport" (proxyParts group))) = group.originTls := by
    rw [pyGet_transport]
    cases group.originTls <;> rfl
  have refl : ∀ name, pyEq (originHeaders name) (originHeaders name) = true := fun name =>
    pyEq_refl _ (proper_originHeaders name)
  rw [validateProxy, refuse_bind, refuse_ok, headers, secure, Bool.and_eq_false_iff,
    Bool.and_eq_false_iff, Bool.not_eq_false', Bool.not_eq_false', Bool.not_eq_false', pyGet_transport]
  constructor
  · intro passes
    obtain ⟨sent, transport⟩ := passes
    cases tls : group.originTls with
    | true =>
        rw [tls, if_pos rfl] at transport
        have equal := transport.resolve_left (by decide)
        exact .inl (originTransport_inj equal).symm
    | false =>
        by_cases own : group.hostHeader = "origin"
        · rw [if_pos own] at sent
          rcases sent with customer | same
          · exact absurd (originHeaders_inj customer) (originHostValue_ne named)
          · exact .inl (originHostValue_inj (originHeaders_inj same)).symm
        · exact .inr ⟨tls, own⟩
  · intro serves
    rcases serves with rfl | ⟨tls, customer⟩
    · constructor
      · by_cases own : group.hostHeader = "origin"
        · rw [if_pos own]
          exact .inr (refl _)
        · rw [if_neg own]
          exact .inl (refl _)
      · cases tls : group.originTls with
        | true => exact .inr (pyEq_refl _ (by simp [originTransport, Json.plain, Json.proper, Json.properFields, lookup]))
        | false => exact .inl rfl
    · rw [if_neg customer, tls]
      exact ⟨.inl (refl _), .inl rfl⟩

/-- What a group has when it comes from the rows. -/
structure WellFormed (tables : NameTables) (group : RouteGroup) : Prop where
  hostnames_ne_nil : group.hostnames ≠ []
  canonical : ∀ name ∈ group.hostnames, canonicalize tables name false = .ok name
  perMinute : ∀ rate ∈ group.perMinute, 1 ≤ rate ∧ rate ≤ maxRate
  perSecond : ∀ rate ∈ group.perSecond, 1 ≤ rate ∧ rate ≤ maxRate
  port : dialPort group.origin = .ok group.originPort
  named : group.originHost ≠ placeholder "http.request.host"

/-- The gateway has a name for the dial of a group, and it serves for its origin. -/
def Offered (upstreams : List (String × String)) (group : RouteGroup) : Prop :=
  ∃ host, upstreams.lookup group.origin = some host ∧ Serves group host

theorem validateAppRoute_built {upstreams : List (String × String)} {seen after : List String}
    {group : RouteGroup} (formed : WellFormed tables group) (fresh : (seen ++ group.hostnames).Nodup) :
    validateAppRoute tables printing settings upstreams seen (CustomDomain.route group settings) =
        .ok after ↔ Offered upstreams group ∧ after = seen ++ group.hostnames := by
  obtain ⟨fields, -, named, matcher, handle⟩ := namedRoute_route printing settings
    group
  have strip : pyEq stripHandler stripHandler = true := pyEq_refl _ proper_stripHandler
  have assert_ : pyEq (assertionSubrequest settings) (assertionSubrequest settings) = true :=
    pyEq_refl _ (proper_assertionSubrequest settings)
  have upstreamsFound : pyGet "upstreams" (proxyParts group) =
      .arr [.obj [("dial", .str group.origin)]] := rfl
  rw [validateAppRoute, named]
  simp only [ok_bind, matcher, handle, singleField_built, hostList_texts formed.hostnames_ne_nil,
    validateHostItems_names formed.canonical fresh,
    standardHandlers_built _ _ _ formed.perMinute formed.perSecond, strip, assert_, Bool.not_true,
    refuse_false, proxyFields_originProxy, upstreamsFound]
  rw [bind_ok]
  constructor
  · intro passes
    obtain ⟨⟨dial, host⟩, known, passes⟩ := passes
    obtain ⟨same, vouched⟩ := of_originHost known
    cases same
    dsimp only at passes
    rw [formed.port, ok_bind, bind_ok] at passes
    obtain ⟨_, proxied, done⟩ := passes
    cases done
    exact ⟨⟨host, vouched, (validateProxy_built formed.named).mp proxied⟩, rfl⟩
  · intro offered
    obtain ⟨⟨host, vouched, serves⟩, rfl⟩ := offered
    refine ⟨(group.origin, host), ?_, ?_⟩
    · simp [originHost, hashable, vouched]
    · dsimp only
      rw [formed.port, ok_bind, (validateProxy_built formed.named).mpr serves]
      rfl

/-- Built routes pass where every dial is offered with a name that serves. -/
theorem validateAppRoutes_built (printing : Printing) (settings : ConfigSettings)
    {upstreams : List (String × String)} {groups : List RouteGroup}
    {seen : List String} (formed : ∀ group ∈ groups, WellFormed tables group)
    (fresh : (seen ++ groups.flatMap (·.hostnames)).Nodup) :
    (∃ after, validateAppRoutes tables printing settings upstreams seen
        (groups.map fun group => CustomDomain.route group settings) = .ok after) ↔
      ∀ group ∈ groups, Offered upstreams group := by
  induction groups generalizing seen with
  | nil => exact ⟨by simp, fun _ => ⟨_, rfl⟩⟩
  | cons group groups ih =>
      rw [List.flatMap_cons, ← List.append_assoc] at fresh
      have one : ∀ after, validateAppRoute tables printing settings upstreams seen
          (CustomDomain.route group settings) = .ok after ↔
            Offered upstreams group ∧ after = seen ++ group.hostnames := fun after =>
        validateAppRoute_built (formed group List.mem_cons_self) (List.nodup_append.mp fresh).1
      have rest := ih (fun other member => formed other (List.mem_cons_of_mem _ member)) fresh
      rw [List.forall_mem_cons, ← rest]
      constructor
      · intro passes
        obtain ⟨after, passes⟩ := passes
        rw [List.map_cons, validateAppRoutes, bind_ok] at passes
        obtain ⟨between, first, later⟩ := passes
        obtain ⟨offered, rfl⟩ := (one between).mp first
        exact ⟨offered, after, later⟩
      · intro offered
        obtain ⟨offered, after, later⟩ := offered
        refine ⟨after, ?_⟩
        rw [List.map_cons, validateAppRoutes, (one _).mpr ⟨offered, rfl⟩]
        exact later



/-! ## Routes on the edge's own names -/

theorem elements_texts (names : List String) :
    elements (.arr (names.map .str)) = .ok (names.map .str) := by
  rw [elements, if_pos]
  simp [hashable]

theorem strangers_none {hosts names : List String} (inside : ∀ host ∈ hosts, host ∈ names) :
    strangers (hosts.map .str) names = .ok false := by
  rw [strangers, elements_texts, ok_bind]
  apply congrArg Except.ok
  rw [List.any_eq_false]
  intro host member
  obtain ⟨name, own, rfl⟩ := List.mem_map.mp member
  have known : (names.any fun other => pyEq (.str name) (.str other)) = true :=
    List.any_eq_true.mpr ⟨name, inside name own, by rw [pyEq, beq_self_eq_true]⟩
  rw [known]
  decide

/-- Names in their order, as `sorted` leaves them. -/
def Sorted (names : List String) : Prop := names.Pairwise (· ≤ ·)

theorem sortedHosts_texts {names : List String} (sorted : Sorted names) :
    sortedHosts (names.map .str) = names := by
  rw [sortedHosts, List.filterMap_map]
  change (names.filterMap some).mergeSort _ = names
  rw [List.filterMap_some]
  exact List.mergeSort_of_pairwise (sorted.imp fun before => by simpa using before)

section Segments

variable {printing : Printing} {settings : ConfigSettings} {facts : EdgeFacts} {hosts : List String}
  {rest : List Json}

theorem takeRoutes_built {allowed : Bool} {refusals : Refusals} {expected : List String → List Json}
    {first : List (String × Json)} {routes : List Json} {count : Nat} (open_ : allowed = true)
    (found : routeHosts first = some (hosts.map .str)) (some_ : hosts ≠ []) (sorted : Sorted hosts)
    (inside : ∀ host ∈ hosts, host ∈ facts.edgeNames) (built : expected hosts = routes)
    (equal : pyEqItems routes routes = true) (counted : routes.length = count) {middle : List Json}
    (whole : middle = routes ++ rest) :
    takeRoutes facts allowed refusals count expected first middle = .ok rest := by
  subst counted whole
  have nonempty : (hosts.map Json.str).isEmpty = false := by
    rw [List.isEmpty_eq_false_iff]
    simpa using some_
  rw [takeRoutes, found, open_, Option.getD_some]
  dsimp only
  rw [nonempty, strangers_none inside, sortedHosts_texts sorted, List.take_left, built, equal,
    List.drop_left]
  rfl

theorem pyEqItems_self {routes : List Json} (plain : ∀ route ∈ routes, Json.plain route = true) :
    pyEqItems routes routes = true := by
  have whole : Json.plain (.arr routes) = true := by
    rw [Json.plain, Json.proper, Json.properItems_iff]
    exact plain
  simpa [pyEq] using pyEq_refl _ whole

/-- The first of some routes is named so, where there is one. -/
def Heads (names : String → Prop) (routes : List Json) : Prop :=
  ∀ first later, routes = .obj first :: later → ∃ id, lookup "@id" first = some (.str id) ∧ names id

theorem Heads.append {names : String → Prop} {first second : List Json} (one : Heads names first)
    (two : Heads names second) : Heads names (first ++ second) := by
  cases first with
  | nil => exact two
  | cons route routes =>
      intro fields later same
      obtain ⟨rfl, -⟩ := List.cons.inj same
      exact one fields routes rfl

theorem Heads.mono {names more : String → Prop} {routes : List Json} (heads : Heads names routes)
    (every : ∀ id, names id → more id) : Heads more routes := by
  intro first later same
  obtain ⟨id, found, named⟩ := heads first later same
  exact ⟨id, found, every id named⟩

theorem heads_allowlistedRoutesFor (name : String) (paths hosts ranges : List String)
    (upstream : String) :
    Heads (· = name) (allowlistedRoutesFor name paths hosts ranges upstream) := by
  intro first later same
  unfold allowlistedRoutesFor at same
  split at same
  next => cases same
  next =>
    cases same
    exact ⟨name, rfl, rfl⟩

theorem heads_apiRouteFor (hosts : List String) (upstream : String) :
    Heads (· = "api") (apiRouteFor hosts upstream) := by
  intro first later same
  unfold apiRouteFor at same
  split at same
  next => cases same
  next =>
    cases same
    exact ⟨"api", rfl, rfl⟩

theorem heads_routes (groups : List RouteGroup) :
    Heads (fun id => startsWith "app-" id = true)
      (groups.map fun group => CustomDomain.route group settings) := by
  intro first later same
  cases groups with
  | nil => cases same
  | cons group groups =>
      cases same
      exact ⟨_, rfl, startsWith_append _ _⟩

/-- The pair of an allowlist, where there is one. -/
theorem allowlistedRoutesFor_pair (name : String) (paths : List String) {ranges : List String}
    (upstream : String) (some_ : ¬ (ranges = [] ∨ hosts = [])) :
    ∃ first second, allowlistedRoutesFor name paths hosts ranges upstream = [.obj first, .obj second] ∧
      lookup "@id" first = some (.str name) ∧ routeHosts first = some (hosts.map .str) := by
  rw [allowlistedRoutesFor, if_neg some_]
  exact ⟨_, _, rfl, rfl, rfl⟩

theorem startsWith_portal {id : String} (named : startsWith "app-" id = true) :
    startsWith "portal" id = false := by
  by_contra other
  rw [Bool.not_eq_false, startsWith, List.isPrefixOf_iff_prefix] at other
  rw [startsWith, List.isPrefixOf_iff_prefix] at named
  rcases List.prefix_or_prefix_of_prefix named other with short | long
  · revert short
    decide
  · revert long
    decide

theorem takePortal_built (printing : Printing) (settings : ConfigSettings) (sorted : Sorted hosts)
    (inside : ∀ host ∈ hosts, host ∈ facts.edgeNames)
    (others : Heads (fun id => startsWith "portal" id = false) rest) :
    takePortal printing settings facts
      (portalRoutesFor hosts facts.portalRanges settings.assertUpstream ++ rest) = .ok rest := by
  have plain := pyEqItems_self (proper_allowlistedRoutesFor "portal" portalPaths hosts
    facts.portalRanges settings.assertUpstream)
  by_cases none : facts.portalRanges = [] ∨ hosts = []
  · rw [portalRoutesFor, allowlistedRoutesFor, if_pos none, List.nil_append]
    unfold takePortal
    split
    next first later =>
      obtain ⟨id, found, other⟩ := others first later rfl
      rw [if_neg]
      simp [isPortal, found, Printing.str, other]
    next => rfl
  · obtain ⟨first, second, shape, named, found⟩ := allowlistedRoutesFor_pair "portal" portalPaths
      settings.assertUpstream none
    replace shape : portalRoutesFor hosts facts.portalRanges settings.assertUpstream =
      [.obj first, .obj second] := shape
    rw [← portalRoutesFor, shape] at plain
    rw [not_or] at none
    rw [shape]
    have own : isPortal printing first = true := by
      rw [isPortal, named, Option.getD_some, Printing.str]
      decide
    rw [List.cons_append, takePortal]
    rw [if_pos own]
    have exposed : (!facts.portalRanges.isEmpty) = true := by simpa using none.1
    exact takeRoutes_built exposed found none.2 sorted inside shape plain rfl rfl

theorem takeOperator_built (settings : ConfigSettings) (sorted : Sorted hosts)
    (inside : ∀ host ∈ hosts, host ∈ facts.edgeNames)
    (others : Heads (fun id => id ≠ "operator" ∧ id ≠ "operator-denied") rest) :
    takeOperator settings facts
      (operatorRoutesFor hosts facts.operatorRanges settings.assertUpstream ++ rest) = .ok rest := by
  have plain := pyEqItems_self (proper_allowlistedRoutesFor "operator" operatorPaths hosts
    facts.operatorRanges settings.assertUpstream)
  by_cases none : facts.operatorRanges = [] ∨ hosts = []
  · rw [operatorRoutesFor, allowlistedRoutesFor, if_pos none, List.nil_append]
    unfold takeOperator
    split
    next first later =>
      obtain ⟨id, found, other⟩ := others first later rfl
      rw [if_neg]
      simp [isOperator, pyGet, found, pyEq, other]
    next => rfl
  · obtain ⟨first, second, shape, named, found⟩ := allowlistedRoutesFor_pair "operator" operatorPaths
      settings.assertUpstream none
    replace shape : operatorRoutesFor hosts facts.operatorRanges settings.assertUpstream =
      [.obj first, .obj second] := shape
    rw [← operatorRoutesFor, shape] at plain
    rw [not_or] at none
    rw [shape]
    have own : isOperator first = true := by
      rw [isOperator, pyGet, named]
      decide
    rw [List.cons_append, takeOperator]
    rw [if_pos own]
    have exposed : (!facts.operatorRanges.isEmpty) = true := by simpa using none.1
    exact takeRoutes_built exposed found none.2 sorted inside shape plain rfl rfl

theorem takeApi_built (sorted : Sorted hosts) (inside : ∀ host ∈ hosts, host ∈ facts.edgeNames)
    (others : Heads (· ≠ "api") rest) {api : List Json}
    (built : api = if facts.publicApi then apiRouteFor hosts settings.assertUpstream else []) :
    takeApi settings facts (api ++ rest) = .ok rest := by
  have absent : takeApi settings facts rest = .ok rest := by
    unfold takeApi
    split
    next first later =>
      obtain ⟨id, found, other⟩ := others first later rfl
      rw [if_neg]
      simp [isApi, pyGet, found, pyEq, other]
    next => rfl
  subst built
  by_cases public_ : facts.publicApi = true
  · rw [if_pos public_]
    have plain := pyEqItems_self (proper_apiRouteFor hosts settings.assertUpstream)
    by_cases none : hosts = []
    · rwa [apiRouteFor, if_pos none, List.nil_append]
    · obtain ⟨first, shape, named, found⟩ : ∃ first,
          apiRouteFor hosts settings.assertUpstream = [.obj first] ∧
          lookup "@id" first = some (.str "api") ∧ routeHosts first = some (hosts.map .str) := by
        rw [apiRouteFor, if_neg none]
        exact ⟨_, rfl, rfl, rfl⟩
      rw [shape] at plain ⊢
      have own : isApi first = true := by
        rw [isApi, pyGet, named]
        decide
      rw [List.cons_append, takeApi]
      rw [if_pos own]
      exact takeRoutes_built public_ found none sorted inside shape plain rfl rfl
  · rwa [if_neg public_, List.nil_append]

end Segments

/-! ## The apps -/

theorem validateFields_of {reason : String → Json → String} {expected fields : List (String × Json)}
    {but : String} (each : ∀ field ∈ expected, field.1 ≠ but → pyEq (pyGet field.1 fields) field.2 = true) :
    validateFields reason expected but fields = .ok () := by
  unfold validateFields
  induction expected with
  | nil => rfl
  | cons first rest ih =>
      have here : refuse (decide (first.1 ≠ but) && !pyEq (pyGet first.1 fields) first.2)
          (reason first.1 first.2) = .ok () := by
        rw [refuse_ok]
        by_cases same : first.1 = but
        · simp [same]
        · simp [each first List.mem_cons_self same]
      rw [List.forM_eq_forM, List.forM_cons, here]
      exact ih fun field member => each field (List.mem_cons_of_mem _ member)

/-- Fields that are the expected ones but for one of them. -/
theorem validateFields_self {reason : String → Json → String} {expected fields : List (String × Json)}
    {but : String} (plain : Json.plain (.obj expected) = true)
    (same : ∀ name, name ≠ but → lookup name fields = lookup name expected) :
    validateFields reason expected but fields = .ok () := by
  apply validateFields_of
  intro field member other
  rw [Json.plain, Json.proper] at plain
  have found : pyGet field.1 fields = field.2 := by
    rw [pyGet, same field.1 other, Json.lookup_of_mem plain member, Option.getD_some]
  rw [found]
  exact pyEq_refl _ (Json.proper_of_mem plain member)

theorem keys_known {fields : List (String × Json)} {keys : List String}
    (same : fields.map (·.1) = keys) : (fields.any fun field => !keys.contains field.1) = false := by
  rw [List.any_eq_false]
  intro field member
  have inside : field.1 ∈ keys := same ▸ List.mem_map_of_mem member
  rw [List.contains_iff_mem.mpr inside]
  decide

theorem sameKeys_self {fields : List (String × Json)} {keys : List String}
    (same : fields.map (·.1) = keys) : sameKeys fields keys = true := by
  subst same
  rw [sameKeys_iff]
  constructor
  · intro field member
    exact List.mem_map_of_mem member
  · intro key member
    exact Json.isSome_lookup_of_key member

theorem plain_httpApp (settings : ConfigSettings) : Json.plain (.obj (httpApp settings [])) = true := by
  have whole : Json.plain (appsOf settings []) = true := proper_appsOf settings (by simp)
  rw [Json.plain, appsOf, Json.proper] at whole
  exact Json.proper_of_mem whole List.mem_cons_self

theorem plain_server (settings : ConfigSettings) : Json.plain (.obj (server settings [])) = true := by
  rw [Json.plain, Json.proper]
  exact proper_server settings (by simp)

theorem serverRoutes_built (routes : List Json) {more : List (String × Json)}
    (others : ∀ field ∈ more, field.1 = "tls") :
    serverRoutes printing settings (("http", .obj (httpApp settings routes)) :: more) =
      .ok (healthRoute :: routes ++ [unmatchedRoute]) := by
  have known : ((("http", .obj (httpApp settings routes)) :: more).any fun field : String × Json =>
      !(["http", "tls"].contains field.1)) = false := by
    rw [List.any_eq_false]
    intro field member
    have named : field.1 = "http" ∨ field.1 = "tls" := by
      rcases List.mem_cons.mp member with rfl | later
      · exact .inl rfl
      · exact .inr (others field later)
    rw [List.contains_iff_mem.mpr (List.mem_pair.mpr named)]
    decide
  have http : pyGet "http" (("http", .obj (httpApp settings routes)) :: more) =
      .obj (httpApp settings routes) := rfl
  have servers : pyGet "servers" (httpApp settings routes) =
      .obj [(serverName, .obj (server settings routes))] := rfl
  have own : pyGet serverName [(serverName, .obj (server settings routes))] =
      .obj (server settings routes) := rfl
  have found : pyGet "routes" (server settings routes) =
      .arr (healthRoute :: routes ++ [unmatchedRoute]) := rfl
  have two : ¬ (healthRoute :: routes ++ [unmatchedRoute]).length < 2 := by
    simp
  rw [serverRoutes, known, refuse_false, ok_bind]
  dsimp only
  rw [http]
  dsimp only
  rw [sameKeys_self (httpApp_keys routes), validateFields_self (plain_httpApp settings) fun _ => lookup_httpApp,
    servers]
  dsimp only
  rw [(sameKeys_self rfl : sameKeys [(serverName, _)] [serverName] = true), own]
  dsimp only
  rw [keys_known (server_keys routes),
    validateFields_self (plain_server settings) fun _ => lookup_server, found]
  dsimp only
  rw [decide_eq_false two]
  rfl

theorem middleRoutes_built (routes : List Json) :
    middleRoutes (healthRoute :: routes ++ [unmatchedRoute]) = .ok routes := by
  have health : pyEq healthRoute healthRoute = true := pyEq_refl _ proper_healthRoute
  have unmatched : pyEq unmatchedRoute unmatchedRoute = true := pyEq_refl _ proper_unmatchedRoute
  have last : (healthRoute :: routes ++ [unmatchedRoute]).getLast? = some unmatchedRoute := by
    rw [List.cons_append, List.getLast?_cons, List.getLast?_append, List.getLast?_singleton]
    simp
  rw [middleRoutes, last, Option.any_some, unmatched, List.cons_append, List.head?_cons, Option.any_some,
    health, List.tail_cons, List.dropLast_concat]
  rfl

/-- The gateway accepts what is built for some hosts and groups, exactly where it knows every dial by a name
that serves for its origin. -/
theorem validateApps_built {facts : EdgeFacts} {hosts : List String} {groups : List RouteGroup}
    {api : List Json} (sorted : Sorted hosts) (inside : ∀ host ∈ hosts, host ∈ facts.edgeNames)
    (built : api = if facts.publicApi then apiRouteFor hosts settings.assertUpstream else [])
    (formed : ∀ group ∈ groups, WellFormed tables group)
    (fresh : (groups.flatMap (·.hostnames)).Nodup) :
    validateApps printing settings tables facts (appsOf settings
        (portalRoutesFor hosts facts.portalRanges settings.assertUpstream ++
          operatorRoutesFor hosts facts.operatorRanges settings.assertUpstream ++ api ++
            groups.map fun group => CustomDomain.route group settings)) = .ok () ↔
      ∀ group ∈ groups, Offered facts.upstreams group := by
  have applications : Heads (fun id => startsWith "app-" id = true)
      (groups.map fun group => CustomDomain.route group settings) := heads_routes groups
  have operators : Heads (· = "operator")
      (operatorRoutesFor hosts facts.operatorRanges settings.assertUpstream) :=
    heads_allowlistedRoutesFor _ _ _ _ _
  have apis : Heads (· = "api") api := by
    subst built
    split
    next => exact heads_apiRouteFor _ _
    next =>
      intro first later same
      cases same
  have afterApi := takeApi_built sorted inside
    (applications.mono fun id named other => by
      subst other
      exact absurd named (by decide)) built
  have afterOperator := takeOperator_built settings sorted inside
    (Heads.append
      (apis.mono fun id named => by
        subst named
        decide)
      (applications.mono fun id named => by
        constructor <;>
          · rintro rfl
            exact absurd named (by decide)))
  have afterPortal := takePortal_built printing settings sorted inside
    (Heads.append
      (operators.mono fun id named => by
        subst named
        decide)
      (Heads.append
        (apis.mono fun id named => by
          subst named
          decide)
        (applications.mono fun id named => startsWith_portal named)))
  have tls : ∀ more, validateTls settings (("http", more) ::
      if settings.disableHttps then [] else [("tls", tlsAutomation settings)]) = .ok () := by
    intro more
    have plain : pyEq (tlsAutomation settings) (tlsAutomation settings) = true :=
      pyEq_refl _ (proper_tlsAutomation settings)
    cases https : settings.disableHttps <;> simp [validateTls, https, pyGet, lookup, plain, isNull]
  have others : ∀ field ∈ (if settings.disableHttps then [] else [("tls", tlsAutomation settings)] :
      List (String × Json)), field.1 = "tls" := by
    cases settings.disableHttps <;> simp
  rw [appsOf, validateApps, serverRoutes_built _ others, ok_bind, middleRoutes_built, ok_bind,
    List.append_assoc, List.append_assoc, afterPortal, ok_bind, afterOperator, ok_bind, afterApi, ok_bind,
    ← validateAppRoutes_built printing settings formed (show ([] ++ _).Nodup from fresh), bind_ok]
  refine exists_congr fun after => ?_
  rw [tls, and_iff_left rfl]

end Built

end CustomDomain.Gateway
