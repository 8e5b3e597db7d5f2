import CustomDomain.AssertionKeys
import CustomDomain.Assertions
import CustomDomain.EdgeOrigins

/-!
# One hostname, three decisions

`edge_assert` of `app/v1/internal.py` decides on a request, `tls_ask` on a certificate and the route
groups of `app/edge/config.py` on a route.  What they decide on one hostname goes together.
-/

namespace CustomDomain

open Transaction PythonText OriginVerification Gateway

/-! ## The decision on a request -/

def workspacePath : String := "/.well-known/custom-domain-workspace"

/-- The headers that `edge_assert` reads. -/
structure AssertRequest where
  host : Option String := none
  sni : Option String := none
  requestId : Option String := none
  edgeToken : Option String := none
  forwardedUri : Option String := none

/-- How `edge_assert` ends: a status without a token, an exception, or 200 with the token. -/
inductive AssertAnswer where
  | refused (status : Nat)
  | raised
  | signed (token : String)

/-- `host.rsplit(":", 1)[0] if host.count(":") == 1 else host`. -/
def withoutPort (host : String) : String :=
  if host.toList.count ':' = 1 then (rsplitOnce ':' host).headD "" else host

/-- `(forwarded_uri or "").split("?", 1)[0]`. -/
def requestPath (uri : Option String) : String :=
  String.ofList ((uri.getD "").toList.takeWhile (· ≠ '?'))

/-- The SNI names the host too, where there is one. -/
def sniAgrees (tables : NameTables) (hostname : String) (sni : Option String) : Bool :=
  match sni with
  | none => true
  | some sni =>
      if sni = "" ∨ startsWith "\x7b" sni = true then true
      else
        match canonicalize tables sni false with
        | .error _ => false
        | .ok name => name == hostname

/-- `(request_id or "")[:64] or "unknown"`. -/
def assertedRequestId (requestId : Option String) : String :=
  let id := String.ofList ((requestId.getD "").toList.take 64)
  if id = "" then "unknown" else id

/-- What `edge_assert` lets through of a domain: everything once it is ready, the workspace probe
before. -/
def admits (loaded : Loaded) (path : String) : Bool :=
  isServeable loaded || (routable loaded && path == workspacePath)

section Decision

variable (hmac : List UInt8 → List UInt8 → List UInt8) (environment : Environment)
  (settings : ConfigSettings)

/-- The token for a domain: with the key of its application, if that has one.  The seconds of the
clock have few digits, so that `sign` gives it. -/
def assertionFor (view : Database) (deployment : String × List UInt8) (domain : Domain)
    (hostname : String) (requestId : Option String) (now : Time) (issued : Int) : String :=
  let (keyId, key) := match signingKey view domain.applicationId now with
    | some own => (own.keyId, encodeUtf8 own.secret)
    | none => deployment
  (issue keyId (uuidText domain.applicationId) (uuidText domain.id) domain.reference hostname
    (assertedRequestId requestId) issued settings.assertionTtl).token hmac key

/-- The part of `edge_assert` that reads the rows, for the hostname of the request. -/
def assertHostname (deployment : String × List UInt8) (hostname : String) (request : AssertRequest)
    (now : Time) (issued : Int) : Sql AssertAnswer := do
  let found ← findLiveByHostname environment hostname
  match found with
  | none => pure (.refused 403)
  | some loaded =>
      if admits loaded (requestPath request.forwardedUri) = false then pure (.refused 403)
      else
        match loaded.application with
        | none => pure .raised
        | some application => do
            let origin ← .read fun view => servingOrigin view application
            match origin with
            | none => pure (.refused 403)
            | some _ =>
                .read fun view => .signed (assertionFor hmac settings view deployment loaded.domain
                  hostname request.requestId now issued)

/-- `edge_assert`; the clock is read for the key and for the token. -/
def edgeAssert (trusted : Bool) (request : AssertRequest) (now : Time) (issued : Int) :
    Sql AssertAnswer :=
  if trusted = false then pure (.refused 403)
  else
    match tokenOk settings request.edgeToken, settings.activeKey with
    | none, _ => pure .raised
    | some false, _ => pure (.refused 403)
    | some true, none => pure (.refused 503)
    | some true, some deployment =>
        match request.host.filter (· ≠ "") with
        | none => pure (.refused 403)
        | some host =>
            match canonicalize environment.tables (withoutPort host) false with
            | .error _ => pure (.refused 403)
            | .ok hostname =>
                if sniAgrees environment.tables hostname request.sni = false then
                  pure (.refused 403)
                else assertHostname hmac environment settings deployment hostname request now issued

end Decision

/-! ## One row, three predicates -/

section Predicates

variable {loaded : Loaded}

/-- Certificates are issued for exactly the domains that are routed. -/
theorem certificateAuthorized_eq_routable (loaded : Loaded) :
    certificateAuthorized loaded = routable loaded := by
  have statuses : ∀ status : DomainStatus,
      decide (status ∉ notIssuable) = decide (status ∈ routableStatuses) := by
    intro status
    cases status <;> decide
  rw [certificateAuthorized, routable, statuses]

theorem routable_of_isServeable (serveable : isServeable loaded = true) : routable loaded = true := by
  simp only [isServeable, Bool.and_eq_true, decide_eq_true_eq] at serveable
  obtain ⟨⟨⟨⟨live, ready⟩, active⟩, verified⟩, -⟩ := serveable
  rw [routable, live, ready, active, verified]
  decide

theorem routable_of_admits {path : String} (admitted : admits loaded path = true) :
    routable loaded = true := by
  rw [admits, Bool.or_eq_true, Bool.and_eq_true] at admitted
  exact admitted.elim routable_of_isServeable (·.1)

/-- A routed domain is live, its application is active and its claim is verified. -/
theorem of_routable (routed : routable loaded = true) :
    loaded.domain.isLive = true ∧
      (∃ application, loaded.application = some application ∧ application.status = .active) ∧
      loaded.domain.activeClaim.any (·.status = .verified) = true := by
  simp only [routable, Bool.and_eq_true, decide_eq_true_eq, beq_iff_eq] at routed
  obtain ⟨⟨⟨live, -⟩, active⟩, verified⟩ := routed
  refine ⟨live, Option.map_eq_some_iff.mp active, ?_⟩
  obtain ⟨claim, found, status⟩ := Option.map_eq_some_iff.mp verified
  rw [found, Option.any_some, status]
  decide

end Predicates

section Decided

variable {hmac : List UInt8 → List UInt8 → List UInt8} {environment : Environment}
  {settings : ConfigSettings} {db : Database}

/-- The row of a domain as the edge loads it. -/
def Domain.loaded (domain : Domain) (db : Database) : Loaded :=
  ⟨domain, db.application? domain.applicationId⟩

/-- What a token rests on: the live row of the hostname, its application and the origin that serves it. -/
structure Asserted (db : Database) (hostname path : String) where
  domain : Domain
  stored : domain ∈ db.domains
  live : domain.isLive = true
  named : domain.hostname = hostname
  admitted : admits (domain.loaded db) path = true
  application : Application
  owner : db.application? domain.applicationId = some application
  origin : VerifiedOrigin
  serving : servingOrigin db application = some origin

variable {deployment : String × List UInt8} {hostname : String} {request : AssertRequest} {now : Time}
  {issued : Int}

theorem of_assertHostname (consistent : db.Consistent environment)
    (canonical : canonicalize environment.tables hostname false = .ok hostname) {token : String}
    {after : Database}
    (signed : (assertHostname hmac environment settings deployment hostname request now issued).run db =
      (.ok (.signed token), after)) :
    ∃ asserted : Asserted db hostname (requestPath request.forwardedUri),
      token = assertionFor hmac settings db deployment asserted.domain hostname request.requestId now
        issued := by
  rw [assertHostname, Program.run_bind,
    LegacyImport.findLiveByHostname_exact consistent.keyed canonical] at signed
  cases found : db.liveByHostname hostname with
  | none =>
      rw [found] at signed
      cases signed
  | some domain =>
      have chosen := List.find?_some found
      rw [Bool.and_eq_true, beq_iff_eq] at chosen
      rw [found, Option.map_some] at signed
      dsimp only at signed
      split at signed
      next => cases signed
      next refused =>
        rw [Bool.not_eq_false] at refused
        split at signed
        next => cases signed
        next application owner =>
          rw [Program.run_bind, Program.run_read] at signed
          dsimp only at signed
          cases serving : servingOrigin db application with
          | none =>
              rw [serving] at signed
              cases signed
          | some origin =>
              rw [serving] at signed
              cases signed
              exact ⟨⟨domain, List.mem_of_find?_eq_some found, chosen.1, chosen.2, refused, application,
                owner, origin, serving⟩, rfl⟩

theorem assertHostname_signs (consistent : db.Consistent environment)
    (canonical : canonicalize environment.tables hostname false = .ok hostname)
    (asserted : Asserted db hostname (requestPath request.forwardedUri)) :
    (assertHostname hmac environment settings deployment hostname request now issued).run db =
      (.ok (.signed (assertionFor hmac settings db deployment asserted.domain hostname
        request.requestId now issued)), db) := by
  have spelled : canonicalize environment.tables hostname false = .ok asserted.domain.hostname := by
    rw [asserted.named, canonical]
  have found := findLiveByHostname_finds consistent asserted.stored asserted.live spelled
  have admitted : ¬ admits ⟨asserted.domain, db.application? asserted.domain.applicationId⟩
      (requestPath request.forwardedUri) = false := by
    rw [Bool.not_eq_false]
    exact asserted.admitted
  rw [assertHostname, Program.run_bind, found]
  dsimp only
  rw [if_neg admitted, asserted.owner]
  dsimp only
  rw [Program.run_bind, Program.run_read]
  dsimp only
  rw [asserted.serving]
  rfl

/-- A request that the edge may make for a hostname. -/
structure Presents (environment : Environment) (settings : ConfigSettings) (trusted : Bool)
    (request : AssertRequest) (hostname : String) : Prop where
  trusted : trusted = true
  token : tokenOk settings request.edgeToken = some true
  host : ∃ host, request.host.filter (· ≠ "") = some host ∧
    canonicalize environment.tables (withoutPort host) false = .ok hostname
  sni : sniAgrees environment.tables hostname request.sni = true

variable {trusted : Bool}

theorem edgeAssert_eq (presents : Presents environment settings trusted request hostname)
    (active : settings.activeKey = some deployment) :
    edgeAssert hmac environment settings trusted request now issued =
      assertHostname hmac environment settings deployment hostname request now issued := by
  obtain ⟨host, sent, spelled⟩ := presents.host
  unfold edgeAssert
  rw [presents.trusted, if_neg (by decide), presents.token, active]
  dsimp only
  rw [sent]
  dsimp only
  rw [spelled]
  dsimp only
  rw [presents.sni, if_neg (by decide)]

theorem of_edgeAssert {token : String} {after : Database}
    (signed : (edgeAssert hmac environment settings trusted request now issued).run db =
      (.ok (.signed token), after)) :
    ∃ hostname deployment, Presents environment settings trusted request hostname ∧
      settings.activeKey = some deployment := by
  unfold edgeAssert at signed
  split at signed
  next => cases signed
  next known =>
    split at signed
    next => cases signed
    next => cases signed
    next => cases signed
    next deployment token active =>
      split at signed
      next => cases signed
      next host sent =>
        split at signed
        next => cases signed
        next hostname spelled =>
          split at signed
          next => cases signed
          next agrees =>
            rw [Bool.not_eq_false] at known agrees
            exact ⟨hostname, deployment, ⟨known, token, ⟨host, sent, spelled⟩, agrees⟩, active⟩

/-- A routed hostname is allowed its certificate. -/
theorem tlsAsk_routable {edgeHostname : Option String} (consistent : db.Consistent environment)
    (canonical : canonicalize environment.tables hostname false = .ok hostname) {domain : Domain}
    (stored : domain ∈ db.domains) (named : domain.hostname = hostname)
    (routed : routable (domain.loaded db) = true) :
    (tlsAsk environment true edgeHostname hostname).run db = (.ok 200, db) := by
  have length := canonicalize_length canonical
  have fits : ¬ (hostname.length < 1 ∨ 253 < hostname.length) := by
    change 0 < hostname.length ∧ hostname.length ≤ 253 at length
    omega
  have spelled : canonicalize environment.tables hostname false = .ok domain.hostname := by
    rw [named, canonical]
  have found := findLiveByHostname_finds consistent stored (of_routable routed).1 spelled
  have certified : certificateAuthorized ⟨domain, db.application? domain.applicationId⟩ = true := by
    rw [certificateAuthorized_eq_routable]
    exact routed
  unfold tlsAsk
  rw [if_neg fits, if_neg (by decide), Program.run_bind, Program.run_tryCatch, Program.run_bind, found]
  dsimp only [Program.run_pure]
  rw [Option.any_some, certified, if_pos rfl]
  rfl

/-- Without a domain that may be routed, the edge's own names decide. -/
theorem tlsAsk_unrouted {edgeHostname : Option String} (consistent : db.Consistent environment)
    (canonical : canonicalize environment.tables hostname false = .ok hostname)
    (unrouted : ∀ domain ∈ db.domains, domain.hostname = hostname →
      routable (domain.loaded db) = false) :
    (tlsAsk environment true edgeHostname hostname).run db =
      (.ok (if hostname ∈ portalHosts edgeHostname db then 200 else 403), db) := by
  have length := canonicalize_length canonical
  have fits : ¬ (hostname.length < 1 ∨ 253 < hostname.length) := by
    change 0 < hostname.length ∧ hostname.length ≤ 253 at length
    omega
  have refused : ∀ row, db.liveByHostname hostname = some row →
      certificateAuthorized ⟨row, db.application? row.applicationId⟩ = false := by
    intro row found
    have chosen := List.find?_some found
    rw [Bool.and_eq_true, beq_iff_eq] at chosen
    rw [certificateAuthorized_eq_routable]
    exact unrouted row (List.mem_of_find?_eq_some found) chosen.2
  have none : ((db.liveByHostname hostname).map fun domain =>
      (⟨domain, db.application? domain.applicationId⟩ : Loaded)).any certificateAuthorized = false := by
    cases found : db.liveByHostname hostname with
    | none => rfl
    | some row => exact refused row found
  unfold tlsAsk
  rw [if_neg fits, if_neg (by decide), Program.run_bind, Program.run_tryCatch, Program.run_bind,
    LegacyImport.findLiveByHostname_exact consistent.keyed canonical]
  dsimp only [Program.run_pure]
  rw [none, if_neg (by decide), Program.run_bind, isEdgeName_run, canonicalize_allowApex canonical]
  by_cases own : hostname ∈ portalHosts edgeHostname db <;> simp [own]

/-- A live hostname is routed for its own application only. -/
theorem application_of_routed (consistent : db.Consistent environment) {application : Application}
    {domain : Domain} (known : application ∈ db.applications)
    (routed : domain.hostname ∈ routedHostnames db application) (stored : domain ∈ db.domains)
    (live : domain.isLive = true) : db.application? domain.applicationId = some application := by
  obtain ⟨other, member, ⟨owner, alive⟩, -, -, named⟩ := mem_routedHostnames.mp routed
  have same := consistent.single other member domain stored alive live named
  have row : other = domain := List.inj_on_of_nodup_map consistent.keyed member stored same
  subst row
  cases found : db.application? other.applicationId with
  | none =>
      have absent := List.find?_eq_none.mp found application known
      exact absurd owner.symm (by simpa using absent)
  | some holder =>
      have holds : holder.id = other.applicationId := by simpa using List.find?_some found
      rw [List.inj_on_of_nodup_map consistent.applicationsKeyed (List.mem_of_find?_eq_some found) known
        (holds.trans owner)]

/-- What is routed is in the list of its application. -/
theorem mem_routed {domain : Domain} {application : Application} (stored : domain ∈ db.domains)
    (owner : db.application? domain.applicationId = some application)
    (routed : routable (domain.loaded db) = true) :
    domain.hostname ∈ routedHostnames db application := by
  have holds : application.id = domain.applicationId := by simpa using List.find?_some owner
  have parts := routed
  simp only [routable, Bool.and_eq_true, decide_eq_true_eq] at parts
  exact mem_routedHostnames.mpr
    ⟨domain, stored, ⟨holds.symm, parts.1.1.1⟩, parts.1.1.2, routed, rfl⟩

variable {network : Network} {allowPrivate : Bool} {groups : List RouteGroup} {edgeHostname : Option String}

/-- A group that lists a live hostname is the one of its application. -/
theorem group_of_hostname (consistent : db.Consistent environment)
    (listed : serveableRouteGroups network allowPrivate db = some groups) {group : RouteGroup}
    (member : group ∈ groups) {domain : Domain} (stored : domain ∈ db.domains)
    (live : domain.isLive = true) (routed : domain.hostname ∈ group.hostnames) :
    ∃ application origin dial kept, db.application? domain.applicationId = some application ∧
      servingOrigin db application = some origin ∧
      pinnedDial network allowPrivate origin.host origin.port = .ok (dial, kept) ∧
      group = groupOf db application origin dial kept := by
  obtain ⟨application, known, -, found⟩ := (mem_serveableRouteGroups listed group).mp member
  obtain ⟨origin, dial, kept, serving, -, pinned, rfl⟩ := routeGroup_some found
  exact ⟨application, origin, dial, kept, application_of_routed consistent known routed stored live,
    serving, pinned, rfl⟩

/-- Where `edge_assert` signs for a hostname, its certificate is allowed, its token is about its live row,
and the routes that list it are the one to the origin of its application, which is there as soon as
the origin resolves. -/
theorem edge_decisions_agree (edgeHostname : Option String) (consistent : db.Consistent environment)
    (stable : environment.tables.Stable)
    (listed : serveableRouteGroups network allowPrivate db = some groups) {token : String}
    {after : Database}
    (signed : (edgeAssert hmac environment settings trusted request now issued).run db =
      (.ok (.signed token), after)) :
    ∃ hostname, Presents environment settings trusted request hostname ∧
      ∃ asserted : Asserted db hostname (requestPath request.forwardedUri), ∃ deployment,
        token = assertionFor hmac settings db deployment asserted.domain hostname request.requestId now
          issued ∧
        (∀ other ∈ db.domains, other.isLive = true → other.hostname = hostname →
          other = asserted.domain) ∧
        (tlsAsk environment true edgeHostname hostname).run db = (.ok 200, db) ∧
        (∀ group ∈ groups, hostname ∈ group.hostnames → ∃ dial kept,
          pinnedDial network allowPrivate asserted.origin.host asserted.origin.port = .ok (dial, kept) ∧
          group = groupOf db asserted.application asserted.origin dial kept) ∧
        ∀ dial kept,
          pinnedDial network allowPrivate asserted.origin.host asserted.origin.port = .ok (dial, kept) →
            groupOf db asserted.application asserted.origin dial kept ∈ groups ∧
            hostname ∈ (groupOf db asserted.application asserted.origin dial kept).hostnames := by
  obtain ⟨hostname, deployment, presents, active⟩ := of_edgeAssert signed
  have canonical : canonicalize environment.tables hostname false = .ok hostname :=
    canonicalize_stable stable presents.host.choose_spec.2
  rw [edgeAssert_eq presents active] at signed
  obtain ⟨asserted, content⟩ := of_assertHostname consistent canonical signed
  have routed := routable_of_admits asserted.admitted
  refine ⟨hostname, presents, asserted, deployment, content, ?_, ?_, ?_, ?_⟩
  · intro other stored live named
    exact List.inj_on_of_nodup_map consistent.keyed stored asserted.stored
      (consistent.single other stored _ asserted.stored live asserted.live
        (named.trans asserted.named.symm))
  · exact tlsAsk_routable consistent canonical asserted.stored asserted.named routed
  · intro group member lists
    obtain ⟨application, origin, dial, kept, owner, serving, pinned, rfl⟩ := group_of_hostname
      consistent listed member asserted.stored asserted.live (asserted.named.symm ▸ lists)
    rw [asserted.owner, Option.some.injEq] at owner
    subst owner
    rw [asserted.serving, Option.some.injEq] at serving
    subst serving
    exact ⟨dial, kept, pinned, rfl⟩
  · intro dial kept pinned
    have lists := mem_routed asserted.stored asserted.owner routed
    rw [asserted.named] at lists
    obtain ⟨-, ⟨holder, owner, status⟩, -⟩ := of_routable routed
    rw [Domain.loaded, asserted.owner, Option.some.injEq] at owner
    subst owner
    refine ⟨(mem_serveableRouteGroups listed _).mpr ⟨_, List.mem_of_find?_eq_some asserted.owner, status,
      routeGroup_of asserted.serving (List.ne_nil_of_mem lists) pinned⟩, lists⟩

/-- A hostname that a route lists is allowed its certificate, and the probe of the workspace passes;
a hostname without a domain that may be routed is in no route, gets no token for any path, and no
certificate either unless the edge itself is named so. -/
theorem edge_decisions_converse (hmac : List UInt8 → List UInt8 → List UInt8) (settings : ConfigSettings)
    (trusted : Bool) (request : AssertRequest) (now : Time) (issued : Int) (edgeHostname : Option String)
    (consistent : db.Consistent environment)
    (listed : serveableRouteGroups network allowPrivate db = some groups)
    (canonical : canonicalize environment.tables hostname false = .ok hostname) :
    (∀ group ∈ groups, hostname ∈ group.hostnames →
      (tlsAsk environment true edgeHostname hostname).run db = (.ok 200, db) ∧
      (Presents environment settings trusted request hostname → settings.activeKey.isSome = true →
        requestPath request.forwardedUri = workspacePath →
          ∃ token, (edgeAssert hmac environment settings trusted request now issued).run db =
            (.ok (.signed token), db))) ∧
    ((∀ domain ∈ db.domains, domain.hostname = hostname → routable (domain.loaded db) = false) →
      (∀ group ∈ groups, hostname ∉ group.hostnames) ∧
      (∀ token after, Presents environment settings trusted request hostname →
        (edgeAssert hmac environment settings trusted request now issued).run db ≠
          (.ok (.signed token), after)) ∧
      (tlsAsk environment true edgeHostname hostname).run db =
        (.ok (if hostname ∈ portalHosts edgeHostname db then 200 else 403), db)) := by
  constructor
  · intro group member lists
    obtain ⟨application, known, active, found⟩ := (mem_serveableRouteGroups listed group).mp member
    obtain ⟨origin, dial, kept, serving, -, -, rfl⟩ := routeGroup_some found
    obtain ⟨domain, stored, ⟨owner, live⟩, -, routed, named⟩ := mem_routedHostnames.mp lists
    refine ⟨tlsAsk_routable consistent canonical stored named routed, fun presents keyed path => ?_⟩
    obtain ⟨deployment, active⟩ := Option.isSome_iff_exists.mp keyed
    have lists' : domain.hostname ∈ routedHostnames db application := named ▸ lists
    rw [edgeAssert_eq presents active]
    refine ⟨_, assertHostname_signs consistent canonical ⟨domain, stored, live, named, ?_, application,
      application_of_routed consistent known lists' stored live, origin, serving⟩⟩
    rw [admits, path, Domain.loaded, routed, beq_self_eq_true, Bool.and_self, Bool.or_true]
  · intro unrouted
    refine ⟨fun group member lists => ?_, fun token after presents signed => ?_, ?_⟩
    · obtain ⟨application, known, active, found⟩ := (mem_serveableRouteGroups listed group).mp member
      obtain ⟨origin, dial, kept, serving, -, -, rfl⟩ := routeGroup_some found
      obtain ⟨domain, stored, -, -, routed, named⟩ := mem_routedHostnames.mp lists
      have refused := unrouted domain stored named
      rw [Domain.loaded, routed] at refused
      cases refused
    · obtain ⟨-, deployment, -, active⟩ := of_edgeAssert signed
      rw [edgeAssert_eq presents active] at signed
      obtain ⟨asserted, -⟩ := of_assertHostname consistent canonical signed
      have refused := unrouted asserted.domain asserted.stored asserted.named
      rw [routable_of_admits asserted.admitted] at refused
      cases refused
    · exact tlsAsk_unrouted consistent canonical unrouted

end Decided

/-! ## A domain before it is ready -/

def keyedSettings : ConfigSettings where
  assertionKeys := [("1", "0123456789abcdef0123456789abcdef")]

def workspaceRequest : AssertRequest where
  host := some "forms.example.com:443"
  forwardedUri := some "/.well-known/custom-domain-workspace?probe=1"

def AssertAnswer.isSigned : AssertAnswer → Bool
  | .signed _ => true
  | _ => false

/-- A provisioning domain: its workspace probe is let through, with a certificate and a route. -/
theorem edge_decisions_agree_provisioning :
    ∃ token after groups,
      (edgeAssert sampleHmac sampleEnvironment keyedSettings true workspaceRequest 0 0).run
        (runAll sampleEnvironment lonelyRun {}) = (.ok (.signed token), after) ∧
      serveableRouteGroups (serving []) false (runAll sampleEnvironment lonelyRun {}) = some groups ∧
      (tlsAsk sampleEnvironment true none "forms.example.com").run (runAll sampleEnvironment lonelyRun {}) =
        (.ok 200, runAll sampleEnvironment lonelyRun {}) ∧
      ∃ group ∈ groups, "forms.example.com" ∈ group.hostnames := by
  have signs : ((edgeAssert sampleHmac sampleEnvironment keyedSettings true workspaceRequest 0 0).run
      (runAll sampleEnvironment lonelyRun {})).1.toOption.any AssertAnswer.isSigned = true := by
    decide +kernel
  have consistent : (runAll sampleEnvironment lonelyRun {}).Consistent sampleEnvironment :=
    (Database.consistent_empty sampleEnvironment).runAll lonelyRun
  obtain ⟨groups, listed⟩ := Option.isSome_iff_exists.mp (serveableRouteGroups_isSome
    false (serving_printed (runAll sampleEnvironment lonelyRun {})))
  cases ran : (edgeAssert sampleHmac sampleEnvironment keyedSettings true workspaceRequest 0 0).run
      (runAll sampleEnvironment lonelyRun {}) with
  | mk result after =>
      rw [ran] at signs
      rcases result with error | (status | - | token)
      · cases signs
      · cases signs
      · cases signs
      · obtain ⟨hostname, presents, asserted, deployment, -, -, certified, -, routes⟩ :=
          edge_decisions_agree none consistent sampleEnvironment_lawful.stable listed ran
        obtain ⟨host, sent, spelled⟩ := presents.host
        have same : hostname = "forms.example.com" := by
          have host_ : host = "forms.example.com:443" := (Option.some.inj sent).symm
          have known : canonicalize sampleEnvironment.tables (withoutPort "forms.example.com:443") false =
              .ok "forms.example.com" := by decide +kernel
          rw [host_, known] at spelled
          exact (Except.ok.inj spelled).symm
        subst same
        obtain ⟨address, -, pinned, -⟩ := pinnedDial_acceptable
          (serving_printed _ _ (servingOrigin_mem asserted.serving))
          (⟨by decide, .inr (by decide)⟩ : Acceptable false [publicAddress])
        obtain ⟨member, lists⟩ := routes _ _ pinned
        exact ⟨token, after, groups, rfl, listed, certified, _, member, lists⟩

/-- Nobody has registered this hostname. -/
theorem edge_decisions_converse_unknown :
    (tlsAsk sampleEnvironment true none "other.example.com").run (runAll sampleEnvironment lonelyRun {}) =
        (.ok 403, runAll sampleEnvironment lonelyRun {}) := by
  have consistent : (runAll sampleEnvironment lonelyRun {}).Consistent sampleEnvironment :=
    (Database.consistent_empty sampleEnvironment).runAll lonelyRun
  obtain ⟨groups, listed⟩ := Option.isSome_iff_exists.mp (serveableRouteGroups_isSome
    false (serving_printed (runAll sampleEnvironment lonelyRun {})))
  have unrouted : ∀ domain ∈ (runAll sampleEnvironment lonelyRun {}).domains,
      domain.hostname = "other.example.com" →
        routable (domain.loaded (runAll sampleEnvironment lonelyRun {})) = false := by
    decide +kernel
  have canonical : canonicalize sampleEnvironment.tables "other.example.com" false =
      .ok "other.example.com" := by decide +kernel
  obtain ⟨-, -, asked⟩ := (edge_decisions_converse sampleHmac keyedSettings true workspaceRequest 0 0 none
    consistent listed canonical).2 unrouted
  have unnamed : "other.example.com" ∉ portalHosts none (runAll sampleEnvironment lonelyRun {}) := by
    simp only [mem_portalHosts, mem_edgeNames]
    decide +kernel
  rw [asked, if_neg unnamed]

end CustomDomain
