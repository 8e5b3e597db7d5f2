import CustomDomain.EdgeConfig
import CustomDomain.EdgeNames
import CustomDomain.PinnedDials

/-!
# What the edge routes

`serveable_route_groups` and `build_apps` of `app/edge/config.py`: the hostnames of every active
application behind the dial of its origin, and the configuration that routes them.
-/

namespace CustomDomain

open PythonText PythonIp PythonJson OriginVerification
open Json (plain proper)

/-! ## Route groups -/

def routableStatuses : List DomainStatus := [.provisioning, .ready, .attentionRequired]

/-- `routable`. -/
def routable (loaded : Loaded) : Bool :=
  loaded.domain.isLive && decide (loaded.domain.status ∈ routableStatuses) &&
    (loaded.application.map (·.status) == some .active) &&
    (loaded.domain.activeClaim.map (·.status) == some .verified)

/-- The values of `OriginHostHeader`. -/
def OriginHostHeader.value : OriginHostHeader → String
  | .customer => "customer"
  | .origin => "origin"

/-- The hostnames of an application that are routed, in order. -/
def routedHostnames (view : Database) (application : Application) : List String :=
  let domains := (view.domains.filter fun domain =>
    decide (domain.applicationId = application.id) && domain.isLive &&
      decide (domain.status ∈ routableStatuses)).mergeSort fun first second =>
        decide (first.hostname ≤ second.hostname)
  (domains.filter fun domain =>
    routable ⟨domain, view.application? domain.applicationId⟩).map (·.hostname)

section Groups

variable (network : Network) (allowPrivate : Bool) (view : Database)

/-- The route group of one application: none where it has nothing to route or its origin does
not resolve; the outer `none` is a `ValueError`. -/
def routeGroup (application : Application) : Option (Option RouteGroup) :=
  match servingOrigin view application with
  | none => some none
  | some origin =>
      let hostnames := routedHostnames view application
      if hostnames = [] then some none
      else
        match pinnedDial network allowPrivate origin.host origin.port with
        | .error (.failed _) => some none
        | .error .valueError => none
        | .ok (dial, originHost) => some (some {
            applicationSlug := application.slug
            origin := dial
            originHost := originHost
            originTls := origin.scheme = .https
            hostnames := hostnames
            perMinute := application.rateLimitPerMinute
            perSecond := application.rateLimitPerSecond
            hostHeader := origin.hostHeader.value
            originPort := origin.port })

/-- The active applications, by slug. -/
def activeApplications : List Application :=
  (view.applications.filter fun application =>
    decide (application.status = .active)).mergeSort fun first second =>
      decide (first.slug ≤ second.slug)

/-- `serveable_route_groups`. -/
def serveableRouteGroups : Option (List RouteGroup) :=
  ((activeApplications view).mapM (routeGroup network allowPrivate view)).map List.reduceOption

/-- `build_apps`. -/
def buildApps (settings : ConfigSettings) : Option Json := do
  let groups ← serveableRouteGroups network allowPrivate view
  let hosts := portalHosts settings.edgeHostname view
  let portal ← (if settings.portalAllowedIps ≠ [] then portalRoutes settings hosts else some [] :
    Option (List Json))
  let operator ← operatorRoutes settings hosts
  let routes := portal ++ operator ++ apiRoute settings hosts ++
    groups.map fun group => route group settings
  return appsOf settings routes

end Groups

/-! ## The same configuration -/

section Stable

variable {first second : Network} {allowPrivate : Bool} {view : Database}

/-- What two resolvers have to give for one configuration: the same addresses for every origin,
in any order. -/
def SameOrigins (first second : Network) (view : Database) : Prop :=
  ∀ origin ∈ view.origins, SameAnswers first second origin.host origin.port

def PrintedOrigins (network : Network) (view : Database) : Prop :=
  ∀ origin ∈ view.origins, Printed (network.lookup origin.host origin.port).addresses

theorem servingOrigin_mem {application : Application} {origin : VerifiedOrigin}
    (serving : servingOrigin view application = some origin) : origin ∈ view.origins := by
  rw [servingOrigin, Option.filter_eq_some_iff] at serving
  exact List.mem_of_find?_eq_some serving.1

theorem routeGroup_same (printed : PrintedOrigins first view) (same : SameOrigins first second view)
    (application : Application) :
    routeGroup first allowPrivate view application =
      routeGroup second allowPrivate view application := by
  unfold routeGroup
  cases serving : servingOrigin view application with
  | none => rfl
  | some origin =>
      have stored := servingOrigin_mem serving
      dsimp only
      split
      next => rfl
      next =>
        rcases pinnedDial_same allowPrivate (printed origin stored) (same origin stored) with
          ⟨dial, one, two⟩ | ⟨failed, failed', one, two⟩
        · rw [one, two]
        · rw [one, two]

theorem serveableRouteGroups_same (printed : PrintedOrigins first view)
    (same : SameOrigins first second view) :
    serveableRouteGroups first allowPrivate view = serveableRouteGroups second allowPrivate view := by
  have groups : routeGroup first allowPrivate view = routeGroup second allowPrivate view := by
    ext application
    rw [routeGroup_same printed same]
  rw [serveableRouteGroups, serveableRouteGroups, groups]

theorem buildApps_same (settings : ConfigSettings) (printed : PrintedOrigins first view)
    (same : SameOrigins first second view) :
    buildApps first allowPrivate view settings = buildApps second allowPrivate view settings := by
  rw [buildApps, buildApps, serveableRouteGroups_same printed same]

end Stable

/-! ## What is built -/

section Built

variable {allowPrivate : Bool} {view : Database} {settings : ConfigSettings} {desired : Json}
  {test : PyFloat → Bool}

theorem proper_of_portalRoutes {hosts : List String} {routes : List Json}
    (built : portalRoutes settings hosts = some routes) :
    ∀ route ∈ routes, proper test route = true := by
  unfold portalRoutes at built
  cases ranges : settings.portalRanges with
  | none => simp [ranges] at built
  | some ranges_ =>
      rw [ranges] at built
      cases built
      exact proper_allowlistedRoutesFor _ _ _ _ _

theorem proper_of_operatorRoutes {hosts : List String} {routes : List Json}
    (built : operatorRoutes settings hosts = some routes) :
    ∀ route ∈ routes, proper test route = true := by
  unfold operatorRoutes at built
  cases ranges : settings.operatorRanges with
  | none => simp [ranges] at built
  | some ranges_ =>
      rw [ranges] at built
      cases built
      exact proper_allowlistedRoutesFor _ _ _ _ _

/-- The parts of a built configuration. -/
theorem of_buildApps {network : Network} (built : buildApps network allowPrivate view settings = some desired) :
    ∃ groups portal operator,
      serveableRouteGroups network allowPrivate view = some groups ∧
      (if settings.portalAllowedIps ≠ [] then
        portalRoutes settings (portalHosts settings.edgeHostname view) else some []) = some portal ∧
      operatorRoutes settings (portalHosts settings.edgeHostname view) = some operator ∧
      desired = appsOf settings (portal ++ operator ++
        apiRoute settings (portalHosts settings.edgeHostname view) ++
          groups.map fun group => route group settings) := by
  unfold buildApps at built
  rw [Option.bind_eq_bind, Option.bind_eq_some_iff] at built
  obtain ⟨groups, grouped, built⟩ := built
  dsimp only at built
  rw [Option.bind_eq_bind, Option.bind_eq_some_iff] at built
  obtain ⟨portal, portals, built⟩ := built
  rw [Option.bind_eq_some_iff] at built
  obtain ⟨operator, operators, built⟩ := built
  cases built
  exact ⟨groups, portal, operator, grouped, portals, operators, rfl⟩

theorem proper_of_buildApps {network : Network}
    (built : buildApps network allowPrivate view settings = some desired) :
    proper test desired = true := by
  obtain ⟨groups, portal, operator, -, portals, operators, rfl⟩ := of_buildApps built
  apply proper_appsOf
  intro route_ member
  rcases List.mem_append.mp member with outer | application
  · rcases List.mem_append.mp outer with allowlisted | api
    · rcases List.mem_append.mp allowlisted with one | two
      · split at portals
        next => exact proper_of_portalRoutes portals route_ one
        next =>
          cases portals
          cases one
      · exact proper_of_operatorRoutes operators route_ two
    · unfold apiRoute at api
      split at api
      next => exact proper_apiRouteFor _ _ route_ api
      next => cases api
  · obtain ⟨group, -, rfl⟩ := List.mem_map.mp application
    exact proper_route group settings

/-- A built configuration equals itself. -/
theorem plain_of_buildApps {network : Network}
    (built : buildApps network allowPrivate view settings = some desired) : plain desired = true :=
  proper_of_buildApps built

end Built

theorem serveableRouteGroups_isSome {network : Network} (allowPrivate : Bool) {view : Database}
    (printed : PrintedOrigins network view) :
    (serveableRouteGroups network allowPrivate view).isSome = true := by
  have each : ∀ application, (routeGroup network allowPrivate view application).isSome = true := by
    intro application
    unfold routeGroup
    cases serving : servingOrigin view application with
    | none => rfl
    | some origin =>
        dsimp only
        split
        next => rfl
        next =>
          rcases pinnedDial_same allowPrivate (printed origin (servingOrigin_mem serving))
            (fun _ => Iff.rfl) with ⟨dial, pinned, -⟩ | ⟨failed, _, pinned, -⟩
          · rw [pinned]
            rfl
          · rw [pinned]
            rfl
  unfold serveableRouteGroups
  rw [Option.isSome_map]
  induction activeApplications view with
  | nil => rfl
  | cons first rest ih =>
      obtain ⟨group, here⟩ := Option.isSome_iff_exists.mp (each first)
      obtain ⟨groups, there⟩ := Option.isSome_iff_exists.mp ih
      rw [List.mapM_cons, here, there]
      rfl

/-- With accepted settings and addresses as resolvers print them, there is a configuration. -/
theorem buildApps_isSome {network : Network} (allowPrivate : Bool) {view : Database}
    {settings : ConfigSettings} (valid : settings.validate = .ok ())
    (printed : PrintedOrigins network view) :
    (buildApps network allowPrivate view settings).isSome = true := by
  obtain ⟨portal, operator⟩ := EdgeSettings.networks_of_validate valid
  obtain ⟨groups, grouped⟩ := Option.isSome_iff_exists.mp
    (serveableRouteGroups_isSome allowPrivate printed)
  obtain ⟨portalRanges, portals⟩ := Option.isSome_iff_exists.mp (ranges_isSome portal)
  obtain ⟨operatorRanges, operators⟩ := Option.isSome_iff_exists.mp (ranges_isSome operator)
  unfold buildApps portalRoutes operatorRoutes ConfigSettings.portalRanges ConfigSettings.operatorRanges
  rw [grouped, portals, operators]
  cases settings.operatorApiEnabled <;> by_cases exposed : settings.portalAllowedIps = [] <;>
    simp [exposed]

end CustomDomain
