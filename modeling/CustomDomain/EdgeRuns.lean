import CustomDomain.EdgeOrigins
import CustomDomain.JsonText
import CustomDomain.Reconciliation

/-!
# What Caddy runs behind the gateway

`set_apps` of `create_gateway_app` in `app/edge/gateway.py`, beside the operations of the services, and
the reconciler whose admin API is the gateway.
-/

namespace CustomDomain

open PythonText PythonIp PythonJson OriginVerification Gateway

/-! ## The gateway -/

/-- What the gateway meets when it asks the management API for the facts. -/
structure Exchange where
  network : Network
  reachable : Bool := true
  trusted : Bool := true
  token : Option String := none

/-- A decoded body: an object has each of its keys once. -/
abbrev Payload := {payload : Json // payload.distinct = true}

/-- The answers of `set_apps` that forward nothing. -/
inductive Unforwarded where
  | notJson
  | originsUnavailable
  | rejected (reason : String)
  | raised (error : PyError)

def Unforwarded.status : Unforwarded → Nat
  | .notJson => 400
  | .originsUnavailable => 503
  | .rejected _ => 400
  | .raised _ => 500

/-- `_json` of an error. -/
def errorBody (reason : String) : String :=
  "\x7b\"error\": " ++ String.ofList (JsonText.quoted reason) ++ "\x7d"

def Unforwarded.body : Unforwarded → String
  | .notJson => errorBody "body must be JSON"
  | .originsUnavailable => errorBody "verified origins unavailable"
  | .rejected reason => errorBody reason
  | .raised _ => "Internal Server Error"

/-- The apps of `build_bootstrap`. -/
def bootstrapApps (settings : ConfigSettings) : Json := .obj [("http", .obj (httpApp settings []))]

section Deployment

variable (printing : Printing) (environment : Environment) (allowPrivate : Bool)
  (settings : ConfigSettings)

/-- What `origins_provider` returns, or `none` where it raises. -/
def Exchange.facts (exchange : Exchange) (view : Database) : Option EdgeFacts :=
  if exchange.reachable then
    fetchFacts (edgeOrigins exchange.network allowPrivate view settings exchange.trusted exchange.token)
  else none

/-- `set_apps`, up to the document that is forwarded to Caddy. -/
def setApps (facts : Option EdgeFacts) (body : Option Json) : Except Unforwarded Json :=
  match body with
  | none => .error .notJson
  | some payload =>
      match facts with
      | none => .error .originsUnavailable
      | some facts =>
          match validateApps printing settings environment.tables facts payload with
          | .error (.rejected reason) => .error (.rejected reason)
          | .error (.raised error) => .error (.raised error)
          | .ok () => .ok payload

/-- The rows, what Caddy runs, the requests for which the gateway has asked for the facts, and the
documents on their way to Caddy. -/
structure EdgeState where
  db : Database
  running : Json
  asked : List (Option Payload × Option EdgeFacts)
  forwarded : List Json

/-- The edge before anything has happened. -/
def EdgeState.initial : EdgeState where
  db := {}
  running := bootstrapApps settings
  asked := []
  forwarded := []

/-- What can happen, in any order. -/
inductive EdgeAction where
  | service (op : ServiceOp)
  /-- Anybody's request to the gateway, up to the facts that it is judged by. -/
  | ask (exchange : Exchange) (body : Option Payload)
  /-- The gateway refuses or forwards a request for which it has asked for the facts. -/
  | post (index : Nat)
  /-- Caddy takes a document that was forwarded to it. -/
  | adopt (index : Nat)
  /-- Caddy starts again. -/
  | restart

def EdgeState.step (state : EdgeState) : EdgeAction → EdgeState
  | .service op => { state with db := op.run environment state.db }
  | .ask exchange body =>
      { state with asked := state.asked ++ [(body, exchange.facts allowPrivate settings state.db)] }
  | .post index =>
      match state.asked[index]? with
      | none => state
      | some (body, facts) =>
          let state := { state with asked := state.asked.eraseIdx index }
          match setApps printing environment settings facts (body.map (·.val)) with
          | .error _ => state
          | .ok apps => { state with forwarded := state.forwarded ++ [apps] }
  | .adopt index =>
      match state.forwarded[index]? with
      | none => state
      | some apps => { state with running := apps, forwarded := state.forwarded.eraseIdx index }
  | .restart => { state with running := bootstrapApps settings }

def EdgeState.run (state : EdgeState) (actions : List EdgeAction) : EdgeState :=
  actions.foldl (fun state action => state.step printing environment allowPrivate settings action) state

end Deployment

/-! ## Where a running document comes from -/

/-- A group behind which there are rows: it dials an acceptable address of an origin that is offered, at
the port of that origin and under its name. -/
def Backed (network : Network) (allowPrivate : Bool) (view : Database) (group : RouteGroup) : Prop :=
  ∃ origin ∈ offeredOrigins view, group.originHost = origin.host ∧ group.originPort = origin.port ∧
    Acceptable allowPrivate (network.lookup origin.host origin.port).addresses ∧
    ∃ address ∈ (network.lookup origin.host origin.port).addresses,
      group.origin = dialText origin.port address

/-- What the gateway lets through: up to nulls that are left out, the configuration with routes on the
edge's own names, where the settings expose them, and with the routes of backed groups. -/
def Admitted (environment : Environment) (network : Network) (allowPrivate : Bool) (view : Database)
    (settings : ConfigSettings) (apps : Json) : Prop :=
  ∃ (portal operator api : List Json) (groups : List RouteGroup)
    (portalRanges operatorRanges : List String),
    settings.portalRanges = some portalRanges ∧ settings.operatorRanges = some operatorRanges ∧
    OnEdgeNames (portalHosts settings.edgeHostname view) (portalRanges ≠ [])
      (fun hosts => portalRoutesFor hosts portalRanges settings.assertUpstream) portal ∧
    OnEdgeNames (portalHosts settings.edgeHostname view) (operatorRanges ≠ [])
      (fun hosts => operatorRoutesFor hosts operatorRanges settings.assertUpstream) operator ∧
    OnEdgeNames (portalHosts settings.edgeHostname view) (settings.publicApi = true)
      (fun hosts => apiRouteFor hosts settings.assertUpstream) api ∧
    (∀ group ∈ groups, Backed network allowPrivate view group ∧ group.hostnames ≠ [] ∧
      ∀ name ∈ group.hostnames, canonicalize environment.tables name false = .ok name) ∧
    (groups.flatMap (·.hostnames)).Nodup ∧
    Json.pyEq (cleaned apps) (appsOf settings (portal ++ operator ++ api ++
      groups.map fun group => route group settings)) = true

section Admission

variable {printing : Printing} {environment : Environment} {allowPrivate : Bool}
  {settings : ConfigSettings} {view : Database}

/-- A group that the fetched facts vouch for is backed by the rows they were fetched from. -/
theorem Gateway.Vouched.backed {network : Network} {group : RouteGroup}
    (consistent : view.Consistent environment)
    (vouched : Vouched environment.tables ((offeredUpstreams network allowPrivate view).foldl
      (fun known upstream => assign upstream.dial upstream.host known) []) group) :
    Backed network allowPrivate view group := by
  obtain ⟨⟨upstream, listed, dial, named⟩, -⟩ :=
    (lookup_sorted offeredUpstreams_sorted).mp vouched.upstream
  obtain ⟨origin, offered, host, dials⟩ := mem_offeredUpstreams.mp
    (show ⟨group.origin, group.originHost⟩ ∈ offeredUpstreams network allowPrivate view by
      rw [← dial, ← named]
      exact listed)
  obtain ⟨acceptable, address, among, shown⟩ := mem_resolveDials.mp dials
  have valid := consistent.origin origin (List.mem_filter.mp offered).1
  have port := vouched.port
  rw [← shown, dialPort_dialText valid.port.2] at port
  exact ⟨origin, offered, host.symm, (Except.ok.inj port).symm, acceptable, address, among, shown.symm⟩

theorem of_setApps {facts : Option EdgeFacts} {body : Option Json} {apps : Json}
    (forwarded : setApps printing environment settings facts body = .ok apps) :
    body = some apps ∧ ∃ known, facts = some known ∧
      validateApps printing settings environment.tables known apps = .ok () := by
  unfold setApps at forwarded
  split at forwarded
  next => cases forwarded
  next payload =>
    split at forwarded
    next => cases forwarded
    next known =>
      split at forwarded
      next => cases forwarded
      next => cases forwarded
      next accepted =>
        cases forwarded
        exact ⟨rfl, known, rfl, accepted⟩

/-- What `set_apps` forwards is admitted by the rows that the facts came from. -/
theorem admitted_of_setApps (consistent : view.Consistent environment) {exchange : Exchange}
    {body : Payload} {apps : Json}
    (forwarded : setApps printing environment settings (exchange.facts allowPrivate settings view)
      (some body.val) = .ok apps) :
    body.val = apps ∧ Admitted environment exchange.network allowPrivate view settings apps := by
  obtain ⟨same, facts, told, accepted⟩ := of_setApps forwarded
  cases same
  refine ⟨rfl, ?_⟩
  unfold Exchange.facts at told
  split at told
  next =>
    obtain ⟨portalRanges, operatorRanges, portals, operators, rfl⟩ := of_fetchFacts told
    obtain ⟨fields, shape⟩ : ∃ fields, body.val = .obj fields := by
      cases shape : body.val with
      | obj fields => exact ⟨fields, rfl⟩
      | _ =>
          rw [shape] at accepted
          cases accepted
    have distinct := body.property
    rw [shape] at distinct accepted ⊢
    obtain ⟨portal, operator, api, groups, portalOn, operatorOn, apiOn, vouched, fresh, equal⟩ :=
      of_validateApps distinct accepted
    refine ⟨portal, operator, api, groups, portalRanges, operatorRanges, portals, operators, portalOn,
      operatorOn, apiOn, fun group member => ?_, fresh, equal⟩
    have known := vouched group member
    exact ⟨known.backed consistent, known.hostnames_ne_nil, known.canonical⟩
  next => cases told

end Admission

/-! ## Runs -/

section Runs

variable {printing : Printing} {environment : Environment} {allowPrivate : Bool}
  {settings : ConfigSettings}

theorem EdgeState.run_append (state : EdgeState) (before after : List EdgeAction) :
    state.run printing environment allowPrivate settings (before ++ after) =
      (state.run printing environment allowPrivate settings before).run printing environment allowPrivate
        settings after :=
  List.foldl_append

/-- The operation of the services in an action. -/
def EdgeAction.op? : EdgeAction → Option ServiceOp
  | .service op => some op
  | _ => none

theorem EdgeState.step_db (state : EdgeState) (action : EdgeAction) :
    (state.step printing environment allowPrivate settings action).db =
      runAll environment action.op?.toList state.db := by
  cases action with
  | service op => rfl
  | restart => rfl
  | ask exchange body => rfl
  | post index =>
      rw [EdgeState.step]
      split
      next => rfl
      next =>
        dsimp only
        split <;> rfl
  | adopt index =>
      rw [EdgeState.step]
      split <;> rfl

/-- The rows of a run are those of its operations. -/
theorem EdgeState.run_db (state : EdgeState) (actions : List EdgeAction) :
    (state.run printing environment allowPrivate settings actions).db =
      runAll environment (actions.filterMap EdgeAction.op?) state.db := by
  induction actions generalizing state with
  | nil => rfl
  | cons action actions ih =>
      rw [EdgeState.run, List.foldl_cons]
      change ((state.step printing environment allowPrivate settings action).run printing environment
        allowPrivate settings actions).db = _
      rw [ih, state.step_db]
      cases action <;> rfl

theorem EdgeState.consistent_run (actions : List EdgeAction) :
    ((EdgeState.initial settings).run printing environment allowPrivate settings
      actions).db.Consistent environment := by
  rw [EdgeState.run_db]
  exact (Database.consistent_empty environment).runAll _

/-- At some moment of the run, the gateway asked for the facts of the document, and the rows of that
moment admit it. -/
def LetThrough (printing : Printing) (environment : Environment) (allowPrivate : Bool)
    (settings : ConfigSettings) (actions : List EdgeAction) (apps : Json) : Prop :=
  ∃ before exchange, ∃ body : Payload, ∃ after,
    actions = before ++ .ask exchange (some body) :: after ∧ body.val = apps ∧
      Admitted environment exchange.network allowPrivate ((EdgeState.initial settings).run printing
        environment allowPrivate settings before).db settings apps

/-- At some moment of the run, the gateway asked for the facts of a request and was told these. -/
def Asked (printing : Printing) (environment : Environment) (allowPrivate : Bool)
    (settings : ConfigSettings) (actions : List EdgeAction)
    (request : Option Payload × Option EdgeFacts) : Prop :=
  ∃ before exchange after, actions = before ++ .ask exchange request.1 :: after ∧
    request.2 = exchange.facts allowPrivate settings ((EdgeState.initial settings).run printing
      environment allowPrivate settings before).db

theorem LetThrough.append {actions : List EdgeAction} {apps : Json}
    (through : LetThrough printing environment allowPrivate settings actions apps)
    (later : List EdgeAction) :
    LetThrough printing environment allowPrivate settings (actions ++ later) apps := by
  obtain ⟨before, exchange, body, after, rfl, same, admitted⟩ := through
  refine ⟨before, exchange, body, after ++ later, ?_, same, admitted⟩
  rw [List.append_assoc, List.cons_append]

theorem Asked.append {actions : List EdgeAction} {request : Option Payload × Option EdgeFacts}
    (asked : Asked printing environment allowPrivate settings actions request)
    (later : List EdgeAction) :
    Asked printing environment allowPrivate settings (actions ++ later) request := by
  obtain ⟨before, exchange, after, rfl, told⟩ := asked
  refine ⟨before, exchange, after ++ later, ?_, told⟩
  rw [List.append_assoc, List.cons_append]

/-- What the gateway forwards of a request was let through. -/
theorem Asked.letThrough {actions : List EdgeAction} {request : Option Payload × Option EdgeFacts}
    {apps : Json} (asked : Asked printing environment allowPrivate settings actions request)
    (accepted : setApps printing environment settings request.2 (request.1.map (·.val)) = .ok apps) :
    LetThrough printing environment allowPrivate settings actions apps := by
  obtain ⟨before, exchange, after, rfl, told⟩ := asked
  obtain ⟨body, facts⟩ := request
  cases body with
  | none => cases accepted
  | some body =>
      dsimp only at told accepted
      rw [told] at accepted
      obtain ⟨same, admitted⟩ := admitted_of_setApps (EdgeState.consistent_run before) accepted
      exact ⟨before, exchange, body, after, rfl, same, admitted⟩

/-- What every state of a run keeps: the facts of each request are those of a moment of the run, each
document on its way was let through, and what Caddy runs is one of these or what it started with. -/
structure EdgeState.Guarded (state : EdgeState) (printing : Printing) (environment : Environment)
    (allowPrivate : Bool) (settings : ConfigSettings) (actions : List EdgeAction) : Prop where
  asked : ∀ request ∈ state.asked, Asked printing environment allowPrivate settings actions request
  forwarded : ∀ apps ∈ state.forwarded, LetThrough printing environment allowPrivate settings actions apps
  running : state.running = bootstrapApps settings ∨
    LetThrough printing environment allowPrivate settings actions state.running

theorem EdgeState.Guarded.append {state : EdgeState} {actions : List EdgeAction}
    (guarded : state.Guarded printing environment allowPrivate settings actions)
    (later : List EdgeAction) :
    state.Guarded printing environment allowPrivate settings (actions ++ later) where
  asked request member := (guarded.asked request member).append later
  forwarded apps member := (guarded.forwarded apps member).append later
  running := guarded.running.imp_right fun through => through.append later

theorem EdgeState.Guarded.step {actions : List EdgeAction}
    (guarded : ((EdgeState.initial settings).run printing environment allowPrivate settings
      actions).Guarded printing environment allowPrivate settings actions) (action : EdgeAction) :
    (((EdgeState.initial settings).run printing environment allowPrivate settings actions).step printing
      environment allowPrivate settings action).Guarded printing environment allowPrivate settings
        (actions ++ [action]) := by
  obtain ⟨asked, forwarded, running⟩ := guarded.append [action]
  cases action with
  | service op => exact ⟨asked, forwarded, running⟩
  | restart => exact ⟨asked, forwarded, .inl rfl⟩
  | adopt index =>
      unfold EdgeState.step
      dsimp only
      split
      next => exact ⟨asked, forwarded, running⟩
      next apps found =>
        exact ⟨asked, fun other member => forwarded other (List.mem_of_mem_eraseIdx member),
          .inr (forwarded apps (List.mem_of_getElem? found))⟩
  | ask exchange body =>
      refine ⟨fun request member => ?_, forwarded, running⟩
      rcases List.mem_append.mp member with earlier | last
      · exact asked request earlier
      · rw [List.mem_singleton.mp last]
        exact ⟨actions, exchange, [], rfl, rfl⟩
  | post index =>
      unfold EdgeState.step
      dsimp only
      split
      next => exact ⟨asked, forwarded, running⟩
      next body facts found =>
        have kept : ∀ request ∈ ((EdgeState.initial settings).run printing environment allowPrivate
            settings actions).asked.eraseIdx index, Asked printing environment allowPrivate settings
              (actions ++ [.post index]) request :=
          fun request member => asked request (List.mem_of_mem_eraseIdx member)
        split
        next => exact ⟨kept, forwarded, running⟩
        next apps accepted =>
          refine ⟨kept, fun other member => ?_, running⟩
          rcases List.mem_append.mp member with earlier | last
          · exact forwarded other earlier
          · rw [List.mem_singleton.mp last]
            exact (asked _ (List.mem_of_getElem? found)).letThrough accepted

/-- Whatever is posted to the gateway, in whatever order Caddy takes what is forwarded to it: it runs
what it started with, or a document that the rows admitted when the gateway asked for its facts. -/
theorem running_configuration_admitted (printing : Printing) (environment : Environment)
    (allowPrivate : Bool) (settings : ConfigSettings) (actions : List EdgeAction) :
    ((EdgeState.initial settings).run printing environment allowPrivate settings actions).running =
        bootstrapApps settings ∨
      LetThrough printing environment allowPrivate settings actions
        ((EdgeState.initial settings).run printing environment allowPrivate settings actions).running := by
  have guarded : ((EdgeState.initial settings).run printing environment allowPrivate settings
      actions).Guarded printing environment allowPrivate settings actions := by
    induction actions using List.reverseRecOn with
    | nil =>
        constructor
        case asked =>
          intro request member
          cases member
        case forwarded =>
          intro apps member
          cases member
        case running => exact .inl rfl
    | append_singleton actions action ih =>
        rw [EdgeState.run_append]
        exact ih.step action
  exact guarded.running

end Runs

/-! ## The reconciler behind the gateway -/

/-- `CaddyRejectedConfig`. -/
def caddyRejected (status : Nat) (body : String) : CaddyError :=
  .rejectedConfig ("Caddy rejected the configuration (" ++ toString status ++ "): " ++
    String.ofList (body.toList.take 500))

/-- The writes of a client whose admin API is the gateway, which serves no `/load`; `answer` is what
Caddy says to a document that is forwarded to it. -/
def gatewayWrite (printing : Printing) (environment : Environment) (settings : ConfigSettings)
    (facts : Option EdgeFacts) (answer : Nat × String) : ConfigRequest → Except CaddyError Unit
  | .loadConfig _ => .error (caddyRejected 404 "\x7b\"detail\":\"Not Found\"\x7d")
  | .setApps apps =>
      match setApps printing environment settings facts (some apps) with
      | .error refusal => .error (caddyRejected refusal.status refusal.body)
      | .ok _ => if 400 ≤ answer.1 then .error (caddyRejected answer.1 answer.2) else .ok ()

section Behind

variable {printing : Printing} {environment : Environment} {allowPrivate : Bool}
  {settings : ConfigSettings} {view : Database}

theorem setApps_of_accepted {facts : EdgeFacts} {apps : Json}
    (accepted : validateApps printing settings environment.tables facts apps = .ok ()) :
    setApps printing environment settings (some facts) (some apps) = .ok apps := by
  unfold setApps
  dsimp only
  rw [accepted]

theorem settled_running {desired running : Json} :
    Settled desired (some [("apps", running)]) ↔ Json.pyEq running desired = true := by
  constructor
  · intro settled
    obtain ⟨fields, same, equal⟩ := settled
    cases same
    exact equal
  · intro equal
    exact ⟨_, rfl, equal⟩

theorem gatewayWrite_accepted {facts : EdgeFacts} {answer : Nat × String} (reported : answer.1 < 400)
    {apps : Json} (accepted : validateApps printing settings environment.tables facts apps = .ok ()) :
    gatewayWrite printing environment settings (some facts) answer (.setApps apps) = .ok () := by
  unfold gatewayWrite
  dsimp only
  rw [setApps_of_accepted accepted]
  exact if_neg (Nat.not_le_of_lt reported)

theorem gatewayWrite_refused {facts : EdgeFacts} {answer : Nat × String} {apps : Json}
    (refused : validateApps printing settings environment.tables facts apps ≠ .ok ()) :
    ∃ message, gatewayWrite printing environment settings (some facts) answer (.setApps apps) =
      .error (.rejectedConfig message) := by
  unfold gatewayWrite
  dsimp only
  cases passes : setApps printing environment settings (some facts) (some apps) with
  | error refusal => exact ⟨_, rfl⟩
  | ok forwarded =>
      obtain ⟨same, known, told, accepted⟩ := of_setApps passes
      cases same
      cases told
      exact absurd accepted refused

/-- A run of the reconciler, by what the gateway makes of the configuration. -/
theorem Round.run_behind (digest : Json → String) {network : Network} {facts : EdgeFacts}
    {answer : Nat × String} (reported : answer.1 < 400) {desired running : Json}
    (built : buildApps network allowPrivate view settings = some desired) :
    ∃ result request after,
      Round.run digest allowPrivate view settings
        { network := network, write := gatewayWrite printing environment settings (some facts) answer }
        (some [("apps", running)]) = some (result, request, after) ∧
      (Settled desired after ↔ result.error = none) ∧
      (result.error = none ↔ Json.pyEq running desired = true ∨
        validateApps printing settings environment.tables facts desired = .ok ()) := by
  have same := Json.pyEq_refl desired (plain_of_buildApps built)
  unfold Round.run
  rw [built, Option.map_some]
  dsimp only
  by_cases equal : Json.pyEq running desired = true
  · have kept : (Option.map (Json.pyGet "apps") (some [("apps", running)])).any (Json.pyEq · desired) =
        true := equal
    rw [reconcileApply]
    dsimp only
    rw [if_pos kept]
    exact ⟨_, _, _, rfl, by simp [settled_running, equal], by simp [equal]⟩
  · have replaced : ¬ (Option.map (Json.pyGet "apps") (some [("apps", running)])).any
        (Json.pyEq · desired) = true := equal
    rw [reconcileApply]
    dsimp only
    rw [if_neg replaced, ConfigRequest.replacing]
    by_cases accepted : validateApps printing settings environment.tables facts desired = .ok ()
    · have written := gatewayWrite_accepted reported accepted
      rw [written]
      dsimp only
      rw [written]
      exact ⟨_, _, _, rfl, by simp [ConfigRequest.applied, assign, settled_running, same],
        by simp [accepted]⟩
    · have written : ∃ message, gatewayWrite printing environment settings (some facts) answer
          (.setApps desired) = .error (.rejectedConfig message) := gatewayWrite_refused accepted
      obtain ⟨message, written⟩ := written
      rw [written]
      dsimp only
      rw [written]
      exact ⟨_, _, _, rfl, by simp [settled_running, equal], by simp [accepted, equal]⟩

theorem Exchange.facts_isSome {exchange : Exchange} (valid : settings.validate = .ok ())
    (reachable : exchange.reachable = true) (trusted : exchange.trusted = true)
    (known : tokenOk settings exchange.token = some true) :
    ∃ facts, exchange.facts allowPrivate settings view = some facts := by
  obtain ⟨portal, operator⟩ := EdgeSettings.networks_of_validate valid
  obtain ⟨portalRanges, portals⟩ := Option.isSome_iff_exists.mp (ranges_isSome portal)
  obtain ⟨operatorRanges, operators⟩ := Option.isSome_iff_exists.mp (ranges_isSome operator)
  have operators' : settings.operatorRanges =
      some (if settings.operatorApiEnabled then operatorRanges else []) := by
    unfold ConfigSettings.operatorRanges
    rw [operators]
    cases settings.operatorApiEnabled <;> rfl
  unfold Exchange.facts edgeOrigins
  rw [reachable, trusted, known, operators', ConfigSettings.portalRanges, portals]
  exact ⟨_, rfl⟩

/-- In every state that a run reaches, a run of the reconciler that the management API and Caddy answer
leaves Caddy with the desired configuration exactly when it reports no error, which is when Caddy runs
it already or no origin of it is contested: whatever has been posted before. -/
theorem reconcile_settles_iff (stable : environment.tables.Stable) (actions : List EdgeAction)
    {network : Network} (exchange : Exchange) (answer : Nat × String) (digest : Json → String)
    (valid : settings.validate = .ok ()) (reachable : exchange.reachable = true)
    (trusted : exchange.trusted = true) (known : tokenOk settings exchange.token = some true)
    (reported : answer.1 < 400)
    (printed : PrintedOrigins network
      ((EdgeState.initial settings).run printing environment allowPrivate settings actions).db)
    (same : SameOrigins network exchange.network
      ((EdgeState.initial settings).run printing environment allowPrivate settings actions).db) :
    let state := (EdgeState.initial settings).run printing environment allowPrivate settings actions
    ∃ desired facts result request after,
      buildApps network allowPrivate state.db settings = some desired ∧
      exchange.facts allowPrivate settings state.db = some facts ∧
      Round.run digest allowPrivate state.db settings
        { network := network, write := gatewayWrite printing environment settings (some facts) answer }
        (some [("apps", state.running)]) = some (result, request, after) ∧
      (Settled desired after ↔ result.error = none) ∧
      (result.error = none ↔ Json.pyEq state.running desired = true ∨
        Uncontested network allowPrivate state.db) := by
  intro state
  obtain ⟨desired, built⟩ := Option.isSome_iff_exists.mp (buildApps_isSome allowPrivate valid printed)
  obtain ⟨facts, told⟩ := Exchange.facts_isSome valid reachable trusted known
  obtain ⟨result, request, after, ran, settled, fine⟩ := Round.run_behind digest reported built
  refine ⟨desired, facts, result, request, after, built, told, ran, settled, fine.trans ?_⟩
  have fetched := told
  rw [Exchange.facts, if_pos reachable] at fetched
  rw [built_accepted_iff stable (EdgeState.consistent_run actions) printed same built fetched]

end Behind

/-! ## Neighbours -/

theorem lonely_uncontested : Uncontested (serving []) false (runAll sampleEnvironment lonelyRun {}) := by
  intro application stored active some_ own served dial kept pinned contested
  obtain ⟨other, offered, greater, -⟩ := contested
  have single : ∀ origin ∈ (runAll sampleEnvironment lonelyRun {}).origins,
      origin.host = "app.example.com" := by decide +kernel
  rw [single own (servingOrigin_mem served), single other (List.mem_filter.mp offered).1] at greater
  exact absurd greater (lt_irrefl _)

theorem neighbour_contested :
    ¬ Uncontested (serving []) false (runAll sampleEnvironment neighbourRun {}) := by
  intro uncontested
  obtain ⟨application, stored, active, routed, serves⟩ : ∃ application ∈
      (runAll sampleEnvironment neighbourRun {}).applications, application.status = .active ∧
      (∃ domain ∈ (runAll sampleEnvironment neighbourRun {}).domains,
        (domain.applicationId = application.id ∧ domain.isLive = true) ∧
          domain.status ∈ routableStatuses ∧
          routable ⟨domain, (runAll sampleEnvironment neighbourRun {}).application?
            domain.applicationId⟩ = true) ∧
      (servingOrigin (runAll sampleEnvironment neighbourRun {}) application).any (fun own =>
        decide (own.host = "app.example.com" ∧ own.port = 443 ∧ own.scheme = .https)) = true := by
    decide +kernel
  obtain ⟨domain, known, own, status, routes⟩ := routed
  have some_ : routedHostnames (runAll sampleEnvironment neighbourRun {}) application ≠ [] :=
    List.ne_nil_of_mem (mem_routedHostnames.mpr ⟨domain, known, own, status, routes, rfl⟩)
  obtain ⟨origin, served, shape⟩ := (Option.any_eq_true _ _).mp serves
  rw [decide_eq_true_eq] at shape
  have open_ : Acceptable false [publicAddress] := ⟨by decide, .inr (by decide)⟩
  obtain ⟨address, inside, pinned, -⟩ := pinnedDial_acceptable
    (serving_printed _ origin (servingOrigin_mem served)) open_
  obtain ⟨other, offered, host, port⟩ : ∃ other ∈
      offeredOrigins (runAll sampleEnvironment neighbourRun {}),
      other.host = "www.example.net" ∧ other.port = 443 := by
    decide +kernel
  have contested : Contested (serving []) false (runAll sampleEnvironment neighbourRun {})
      origin.host (dialText origin.port address) := by
    refine ⟨other, offered, ?_, mem_resolveDials.mpr ⟨open_, address, inside, ?_⟩⟩
    · rw [shape.1, host]
      decide
    · rw [port, shape.2.1]
  have plain := uncontested application stored active some_ origin served _ _ pinned contested
  rw [shape.2.2] at plain
  cases plain.1

/-- The edge after these operations of the services. -/
def served (ops : List ServiceOp) : EdgeState :=
  (EdgeState.initial {}).run samplePrinting sampleEnvironment false {} (ops.map .service)

theorem served_db (ops : List ServiceOp) : (served ops).db = runAll sampleEnvironment ops {} := by
  rw [served, EdgeState.run_db, List.filterMap_map]
  exact congrArg (runAll sampleEnvironment · {}) (List.filterMap_some)

/-- With a neighbour at the same address, the reconciler cannot apply the configuration that it applies
without. -/
theorem reconcile_settles_iff_neighbour :
    ∃ facts facts' result result' request request' after after',
      Round.run (fun _ => "") false (served lonelyRun).db {}
        ⟨serving [], none, gatewayWrite samplePrinting sampleEnvironment {} (some facts) (200, "")⟩
        (some [("apps", (served lonelyRun).running)]) = some (result, request, after) ∧
      result.error = none ∧
      Round.run (fun _ => "") false (served neighbourRun).db {}
        ⟨serving [], none, gatewayWrite samplePrinting sampleEnvironment {} (some facts') (200, "")⟩
        (some [("apps", (served neighbourRun).running)]) = some (result', request', after') ∧
      result'.error ≠ none := by
  have printed : ∀ ops, PrintedOrigins (serving []) (served ops).db := fun ops => serving_printed _
  have same : ∀ ops, SameOrigins (serving []) (serving []) (served ops).db := fun _ _ _ _ => Iff.rfl
  have valid : ({} : ConfigSettings).validate = .ok () := by decide
  obtain ⟨desired, facts, result, request, after, -, -, ran, -, fine⟩ :=
    reconcile_settles_iff sampleEnvironment_lawful.stable (lonelyRun.map .service)
      ⟨serving [], true, true, none⟩ (200, "") (fun _ => "") valid rfl rfl rfl (by decide)
      (printed lonelyRun) (same lonelyRun)
  obtain ⟨desired', facts', result', request', after', built, -, ran', -, fine'⟩ :=
    reconcile_settles_iff sampleEnvironment_lawful.stable (neighbourRun.map .service)
      ⟨serving [], true, true, none⟩ (200, "") (fun _ => "") valid rfl rfl rfl (by decide)
      (printed neighbourRun) (same neighbourRun)
  refine ⟨facts, facts', result, result', request, request', after, after', ran, ?_, ran', ?_⟩
  · refine fine.mpr (.inr ?_)
    rw [← served, served_db]
    exact lonely_uncontested
  · intro none_
    rcases fine'.mp none_ with equal | uncontested
    · obtain ⟨groups, portal, operator, -, -, -, rfl⟩ := of_buildApps built
      have tls := (Json.pyEq_obj_iff.mp equal).2 ("tls", tlsAutomation {})
        (List.mem_cons_of_mem _ List.mem_cons_self)
      cases tls
    · rw [← served, served_db] at uncontested
      exact neighbour_contested uncontested

end CustomDomain
