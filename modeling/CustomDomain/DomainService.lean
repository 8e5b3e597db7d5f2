import CustomDomain.DomainStatements
import Mathlib.Data.List.Sort

/-!
# Domain claims, lifecycle state and tombstones

`app/services/domains.py`, with the locks of `app/edge/lock.py` and the limits
of `app/services/limits.py` it uses.  Every function is the sequence of
statements its Python counterpart sends; a domain object is passed along as the
value the session holds, and what is decided from it is decided from that value,
not from the stored row.
-/

namespace CustomDomain

open Transaction PythonText

/-- What the service reads from its environment. -/
structure Environment where
  tables : NameTables
  /-- `MAX_DOMAINS`, when it is set. -/
  maxDomains : Option Int := none
  /-- The database of `DATABASE_URL`. -/
  backend : Backend

/-- An environment to evaluate runs in: ASCII names, and `com` and `net` as the
public suffixes. -/
def sampleEnvironment : Environment where
  tables :=
    { idnaEncode := fun name =>
        if name.toList.all fun character => isLabelCharacter character || character == '.' then
          .ok name
        else .error "not an ASCII name"
      privateSuffix := fun name =>
        match (split '.' name).reverse with
        | suffix :: label :: _ =>
            if suffix = "com" ∨ suffix = "net" then some (label ++ "." ++ suffix) else none
        | _ => none }
  backend := .postgresql

theorem sampleEnvironment_lawful : sampleEnvironment.tables.Lawful where
  encoded_characters := by
    intro name encoded accepted character member
    simp only [sampleEnvironment] at accepted
    split at accepted
    next allowed =>
      cases accepted
      simpa using List.all_eq_true.mp allowed character member
    next => cases accepted
  encoded_fixed := by
    intro name encoded accepted
    simp only [sampleEnvironment] at accepted ⊢
    split at accepted
    next allowed =>
      cases accepted
      rw [if_pos allowed]
    next => cases accepted

def sampleApplication : Application where
  id := 1
  slug := "acme"
  name := "Acme"
  cnameTarget := "edge.example.net"

def challengeLabel : String := "_custom-domain-challenge"

def tombstoneRetention : Time := days 90

def maxReferenceLength : Nat := 255

def recheckMinInterval : Time := seconds 60

def recheckWindow : Time := hours 1

def recheckMaxPerWindow : Nat := 60

def registrationWindow : Time := hours 1

def registrationMaxPerWindow : Nat := 120

def domainLimitLock : String := "domain-limit"

def allowedTransitions : DomainStatus → List DomainStatus
  | .pendingDns => [.provisioning, .attentionRequired, .suspended, .deleting]
  | .provisioning => [.ready, .pendingDns, .attentionRequired, .suspended, .deleting]
  | .ready => [.pendingDns, .attentionRequired, .suspended, .deleting]
  | .attentionRequired => [.pendingDns, .provisioning, .ready, .suspended, .deleting]
  | .suspended => [.pendingDns, .provisioning, .deleting]
  | .deleting => []

/-- Statuses that fall back to `pending_dns` when ownership material is
re-issued. -/
def resetOnReissue : List DomainStatus := [.provisioning, .ready, .attentionRequired]

/-! ## Locks and limits -/

/-- `lock_application`: a no-op `UPDATE` of the application's row. -/
def lockApplication (applicationId : Uuid) : Sql Unit :=
  .write
    (fun view => if (view.application? applicationId).isSome then [.application applicationId]
      else [])
    (fun _ db => db)
    fun _ => .pure ()

def hasEdgeLock (db : Database) (name : String) : Bool :=
  db.edgeLocks.any fun lock => lock.name == name

/-- `UPDATE edge_locks ...`; returns whether a row matched. -/
def updateEdgeLock (name holder : String) : Sql Bool :=
  .write
    (fun view => if hasEdgeLock view name then [.edgeLock name] else [])
    (fun view db =>
      if hasEdgeLock view name then
        { db with
          edgeLocks := db.edgeLocks.map fun lock =>
            if lock.name = name then { lock with holder := some holder } else lock }
      else db)
    fun view => .pure (hasEdgeLock view name)

/-- `INSERT INTO edge_locks ...` in a savepoint, its `IntegrityError` ignored.
While another transaction's insert of the row is open, the insert waits. -/
def insertEdgeLock (name : String) : Sql Unit :=
  .write
    (fun view => if hasEdgeLock view name then [] else [.edgeLock name])
    (fun view db =>
      if hasEdgeLock view name then db
      else { db with edgeLocks := db.edgeLocks ++ [{ name := name }] })
    fun _ => .pure ()

/-- `acquire_lock`: take the row for the rest of the transaction, creating it
on first use. -/
def acquireLock (name holder : String) : Sql Unit := do
  let holder := String.ofList (holder.toList.take 128)
  let matched ← updateEdgeLock name holder
  if matched then
    pure ()
  else
    insertEdgeLock name
    let _ ← updateEdgeLock name holder
    pure ()

def deploymentLimit (environment : Environment) : Sql (Option Int) :=
  match environment.maxDomains with
  | none => .pure none
  | some value =>
      if value < 1 then
        .raise (.invalidLimit "MAX_DOMAINS must be at least 1; leave it unset for no limit")
      else .pure (some value)

/-- `live_domains`. -/
def countLive (application : Option Uuid) : Sql Nat :=
  .read fun view => (view.liveDomains application).length

/-- One limit: refuse when the count of live domains has reached it. -/
def enforceLimit (scope : LimitScope) (application : Option Uuid) : Option Int → Sql Unit
  | none => .pure ()
  | some limit => do
      let live ← countLive application
      Program.require (live < limit) (.domainLimitReached scope limit live)

/-- `limits.enforce`. -/
def enforce (environment : Environment) (application : Application) : Sql Unit := do
  let limit ← deploymentLimit environment
  if limit.isSome then
    acquireLock domainLimitLock ("application:" ++ uuidText application.id)
  else
    pure ()
  enforceLimit .application (some application.id) application.maxDomains
  enforceLimit .deployment none limit

/-- Whole seconds, rounded up, and at least one. -/
def retryAfter (wait : Time) : Int :=
  max 1 (-((-wait) / seconds 1))

/-- Times of the events of one kind in the half-open window ending now. -/
def eventsSince (db : Database) (counts : DomainEvent → Bool) (start : Time) : List Time :=
  ((db.events.filter fun event => counts event && decide (start < event.createdAt)).map
    (·.createdAt))

def isDomainCreated : EventPayload → Bool
  | .domainCreated _ _ => true
  | _ => false

def isRecheckRequested : EventPayload → Bool
  | .recheckRequested _ => true
  | _ => false

/-- A budget per window, counted from recorded events. -/
def enforceWindow (counts : DomainEvent → Bool) (window : Time) (budget : Nat) (message : String)
    (now : Time) : Sql Unit := do
  let count ← .read fun view => (eventsSince view counts (now - window)).length
  if budget ≤ count then
    let oldest ← .read fun view => (eventsSince view counts (now - window)).min?
    .raise (.rateLimited message (retryAfter
      (match oldest with
        | some oldest => oldest + window - now
        | none => seconds 60)))
  else
    pure ()

def enforceRegistrationLimit (application : Application) (now : Time) : Sql Unit :=
  enforceWindow
    (fun event => decide (event.applicationId = application.id) && isDomainCreated event.payload)
    registrationWindow registrationMaxPerWindow
    "At most 120 registrations per application per 1 hour(s)" now

/-! ## Loading -/

/-- A domain object with the application it is joined with. -/
structure Loaded where
  domain : Domain
  application : Option Application

/-- `_domain_query`: the row and its application, then its claims, then its
checks, each by a statement of its own. -/
def selectDomain (query : Database → Option Domain) : Sql (Option Loaded) :=
  .select fun view =>
    match query view with
    | none => .pure none
    | some row =>
        let application := view.application? row.applicationId
        .select fun view =>
          let claims := ((view.domain? row.id).map (·.claims)).getD []
          .select fun view =>
            let checks := ((view.domain? row.id).map (·.checks)).getD []
            .pure (some ⟨{ row with claims := claims, checks := checks }, application⟩)

/-- `get_domain`: another application's domain is not found. -/
def getDomain (application : Application) (domainId : Uuid) (includeDeleted : Bool) :
    Sql Domain := do
  let found ← selectDomain fun view =>
    (view.domain? domainId).filter fun domain =>
      decide (domain.applicationId = application.id) && (includeDeleted || domain.isLive)
  match found with
  | none => .raise .domainNotFound
  | some loaded => pure loaded.domain

/-- `find_live_by_hostname`. -/
def findLiveByHostname (environment : Environment) (hostname : String) : Sql (Option Loaded) :=
  match canonicalize environment.tables hostname false with
  | .error refused => .raise (.invalidHostname refused)
  | .ok canonical => selectDomain fun view => view.liveByHostname canonical

/-- `session.refresh(domain)`. -/
def refresh (domain : Domain) : Sql Domain := do
  let found ← selectDomain fun view => view.domain? domain.id
  match found with
  | none => .raise .staleData
  | some loaded => pure loaded.domain

/-! ## Lifecycle -/

/-- `checks_passing`: the last check of each type counts, as in the `dict`. -/
def checksPassing (domain : Domain) : Bool :=
  CheckType.all.all fun checkType =>
    (domain.checks.reverse.find? fun check => check.checkType = checkType).any fun check =>
      check.status == .passing

/-- What `transition_status` refuses. -/
def transitionRefusal (domain : Domain) (newStatus : DomainStatus) : Option ServiceError :=
  if domain.isDeleted then
    some (.invalidStatusTransition "Deleted domains cannot change status")
  else if newStatus = domain.status then none
  else if newStatus ∉ allowedTransitions domain.status then
    some (.invalidStatusTransition
      ("Cannot move from " ++ domain.status.value ++ " to " ++ newStatus.value))
  else if newStatus = .ready then
    if (domain.activeClaim.map (·.status)) ≠ some .verified then
      some (.invalidStatusTransition "Ownership claim is not verified")
    else if !checksPassing domain then
      some (.invalidStatusTransition "Every check must pass before the domain is ready")
    else none
  else none

/-- `transition_status`. -/
def transitionStatus (domain : Domain) (newStatus : DomainStatus) (reason : Option String)
    (now : Time) : Sql Domain :=
  match transitionRefusal domain newStatus with
  | some error => .raise error
  | none =>
      if newStatus = domain.status then .pure domain
      else do
        let after := { domain with status := newStatus, updatedAt := now }
        flushDomain domain after
        recordEvent after (.statusChanged domain.status newStatus reason) now
        pure after

/-- What `record_check` is told about one check. -/
structure Observation where
  status : CheckStatus
  errorCode : Option String := none
  message : Option String := none
  details : Option CheckDetails := none
  observedAt : Time
  nextCheckAt : Option Time := none

/-- The check's row as the observation leaves it. -/
def Observation.applied (observation : Observation) (check : DomainCheck) : DomainCheck :=
  { check with
    status := observation.status
    errorCode := if observation.status = .failing then observation.errorCode else none
    message := observation.message
    details := observation.details
    observedAt := some observation.observedAt
    nextCheckAt := observation.nextCheckAt }

/-- Write the observation to the check's row, which is created when missing. -/
def storeCheck (domain : Domain) (checkType : CheckType) (observation : Observation) :
    Sql Domain :=
  match domain.check checkType with
  | none => do
      let check := observation.applied { checkType := checkType }
      insertCheck domain.id check
      pure (domain.addCheck check)
  | some before => do
      let check := observation.applied before
      flushCheck domain.id before check
      pure (domain.updateCheck checkType (DomainCheck.patch before check))

/-- `record_check`: a ready domain with a failing check needs attention. -/
def recordCheck (domain : Domain) (checkType : CheckType) (observation : Observation) :
    Sql Domain := do
  let previous := (domain.check checkType).map (·.status)
  let domain ← storeCheck domain checkType observation
  recordEvent domain (.checkUpdated checkType previous observation.status
    (if observation.status = .failing then observation.errorCode else none))
    observation.observedAt
  if observation.status = .failing ∧ domain.status = .ready then
    transitionStatus domain .attentionRequired (some (checkType.value ++ "_check_failed"))
      observation.observedAt
  else
    pure domain

/-! ## Claims -/

/-- `_issue_claim`. -/
def issueClaim (domain : Domain) (claimId : Uuid) (token cnameTarget : String) (now : Time) :
    Sql Domain := do
  let claim : OwnershipClaim :=
    { id := claimId
      txtRecordName := challengeLabel ++ "." ++ domain.hostname
      token := token
      cnameTarget := cnameTarget
      createdAt := now }
  insertClaim domain.id claim
  recordEvent domain (.claimIssued claimId claim.txtRecordName) now
  pure (domain.addClaim claim)

/-- `mark_claim_verified`. -/
def markClaimVerified (domain : Domain) (method : VerificationMethod) (now : Time) :
    Sql Domain :=
  match domain.activeClaim with
  | none => .raise (.invalidStatusTransition "Domain has no live ownership claim")
  | some before =>
      if domain.isDeleted then
        .raise (.invalidStatusTransition "Domain has no live ownership claim")
      else do
        let claim :=
          { before with
            status := .verified, verificationMethod := some method, verifiedAt := some now }
        flushClaim domain.id before claim
        let domain := domain.updateClaim before.id (OwnershipClaim.patch before claim)
        recordEvent domain (.claimVerified before.id method) now
        pure domain

/-- `_revoke_live_claim`. -/
def revokeLiveClaim (domain : Domain) (reason : String) (now : Time) : Sql Domain :=
  match domain.activeClaim with
  | none => .pure domain
  | some before => do
      let claim := { before with status := .revoked, revokedAt := some now }
      flushClaim domain.id before claim
      let domain := domain.updateClaim before.id (OwnershipClaim.patch before claim)
      recordEvent domain (.claimRevoked before.id reason) now
      pure domain

namespace Zones

/-- `name.rstrip(".").lower()`. -/
def plainName (name : String) : String := lower (rstripOf '.' name)

/-- The name without its first label: `name.split(".", 1)[1]` where there is a dot. -/
def parent? (name : String) : Option String := (partition '.' name).map (·.2)

/-- `registrable_domain`. -/
def registrableDomain (tables : NameTables) (hostname : String) : Option String :=
  tables.privateSuffix (plainName hostname)

/-- `default_zone`: the zone assumed before DNS says otherwise. -/
def defaultZone (tables : NameTables) (hostname : String) : String :=
  let hostname := plainName hostname
  let above := (parent? hostname).getD hostname
  match registrableDomain tables hostname with
  | some zone => if zone ≠ hostname then zone else above
  | none => above

end Zones

/-- The identifiers and the token a registration draws. -/
structure Fresh where
  domainId : Uuid
  claimId : Uuid
  token : String

/-- The row `claim_domain` inserts. -/
def newDomain (environment : Environment) (application : Application)
    (canonical reference : String) (domainId : Uuid) (now : Time) : Domain where
  id := domainId
  applicationId := application.id
  hostname := canonical
  reference := PythonText.strip reference
  zone := some (Zones.defaultZone environment.tables canonical)
  createdAt := now
  updatedAt := now

/-- `claim_domain`.  `application` is the object the caller holds. -/
def claimDomain (environment : Environment) (application : Application)
    (hostname reference : String) (fresh : Fresh) (now : Time) : Sql Domain := do
  Program.require (application.status = .active) .applicationSuspended
  Program.require ((strip reference).isEmpty = false ∧ reference.length ≤ maxReferenceLength)
    .invalidReference
  match canonicalize environment.tables hostname false with
  | .error refused => .raise (.invalidHostname refused)
  | .ok canonical =>
      lockApplication application.id
      enforce environment application
      enforceRegistrationLimit application now
      let domain := newDomain environment application canonical reference fresh.domainId now
      let conflict ← insertDomain domain
      match conflict with
      | some .hostname => .raise (.hostnameAlreadyClaimed canonical)
      | some .other => .raise (.integrityError "domains")
      | none =>
          let domain ← Program.foldEach CheckType.all domain fun domain checkType => do
            insertCheck domain.id { checkType := checkType }
            pure (domain.addCheck { checkType := checkType })
          recordEvent domain (.domainCreated canonical domain.reference) now
          let domain ← issueClaim domain fresh.claimId fresh.token application.cnameTarget now
          refresh domain

/-- A status earned under the old claim does not outlive it. -/
def leaveStatus (domain : Domain) (now : Time) : Sql Domain :=
  if domain.status ∈ resetOnReissue then
    transitionStatus domain .pendingDns (some "claim_reissued") now
  else .pure domain

/-- `reissue_claim`: nothing established under the old claim carries over. -/
def reissueClaim (application : Application) (domainId claimId : Uuid) (token : String)
    (now : Time) : Sql Domain := do
  let domain ← getDomain application domainId false
  let domain ← revokeLiveClaim domain "reissued" now
  let domain ← Program.foldEach CheckType.all domain fun domain checkType =>
    recordCheck domain checkType
      { status := .pending
        details := some { fields := [("reason", ["claim_reissued"])] }
        observedAt := now }
  let domain ← leaveStatus domain now
  let domain ← issueClaim domain claimId token application.cnameTarget now
  refresh domain

/-- `MAX_PAGE_SIZE`. -/
def maxPageSize : Nat := 200

/-- `ORDER BY created_at, id`. -/
def Domain.before (first second : Domain) : Prop :=
  first.createdAt < second.createdAt ∨
    (first.createdAt = second.createdAt ∧ first.id ≤ second.id)

instance : DecidableRel Domain.before := fun _ _ => inferInstanceAs (Decidable (_ ∨ _))

/-- Live domains of the application whose live claim names another target. -/
def staleDomains (application : Application) (view : Database) : List Uuid :=
  ((view.domains.filter fun domain =>
    decide (domain.applicationId = application.id) && domain.isLive &&
      domain.liveClaims.any fun claim => claim.cnameTarget != application.cnameTarget).insertionSort
    Domain.before).map (·.id)

/-- `reissue_claims_for_target`; `draw` gives each re-issue its identifier and
token. -/
def reissueClaimsForTarget (application : Application) (draw : Nat → Uuid × String) (now : Time) :
    Sql Nat := do
  let stale ← .read (staleDomains application)
  let _ ← Program.foldEach stale 0 fun count domainId => do
    let _ ← reissueClaim application domainId (draw count).1 (draw count).2 now
    pure (count + 1)
  pure stale.length

/-! ## Deletion, rechecks and retention -/

/-- `delete_domain`: a tombstone; the hostname is claimable again at once. -/
def deleteDomain (application : Application) (domainId : Uuid) (now : Time) : Sql Domain := do
  let domain ← getDomain application domainId true
  if domain.isDeleted then
    pure domain
  else
    let after :=
      { domain with
        status := .deleting
        deletedAt := some now
        purgeAfter := some (now + tombstoneRetention)
        updatedAt := now }
    flushDomain domain after
    let domain ← revokeLiveClaim after "deleted" now
    recordEvent domain (.domainDeleted domain.hostname (now + tombstoneRetention)) now
    pure domain

/-- `_enforce_recheck_limits`. -/
def enforceRecheckLimits (domain : Domain) (now : Time) : Sql Unit := do
  let last ← .read fun view =>
    ((view.events.filter fun event =>
      decide (event.domainId = domain.id) && isRecheckRequested event.payload).map
        (·.createdAt)).max?
  match last with
  | some last =>
      Program.require (last + recheckMinInterval ≤ now)
        (.rateLimited "This domain was rechecked less than 60 seconds ago"
          (retryAfter (last + recheckMinInterval - now)))
  | none => pure ()
  enforceWindow
    (fun event => decide (event.applicationId = domain.applicationId) &&
      isRecheckRequested event.payload)
    recheckWindow recheckMaxPerWindow
    "At most 60 manual rechecks per application per 1 hour(s)" now

/-- Set `next_check_at` of one check. -/
def scheduleCheck (domain : Domain) (before : DomainCheck) (at_ : Time) : Sql Domain := do
  let check := { before with nextCheckAt := some at_ }
  flushCheck domain.id before check
  pure (domain.updateCheck before.checkType (DomainCheck.patch before check))

/-- `request_recheck`. -/
def requestRecheck (application : Application) (domainId : Uuid) (requestedBy : String)
    (now : Time) : Sql Domain := do
  lockApplication application.id
  let domain ← getDomain application domainId true
  Program.require (domain.isDeleted = false ∧ domain.status ≠ .deleting)
    (.invalidStatusTransition "Deleted domains are not rechecked")
  enforceRecheckLimits domain now
  let domain ← Program.foldEach domain.checks domain fun domain check =>
    scheduleCheck domain check now
  recordEvent domain (.recheckRequested requestedBy) now
  pure domain

def Domain.purgeable (domain : Domain) (now : Time) : Bool :=
  domain.isDeleted && domain.purgeAfter.any fun purgeAfter => decide (purgeAfter ≤ now)

def zoneRetention : Time := days 7

/-- The rows `purge_tombstones` leaves: first the expired tombstones go, with
what belongs to them; then deleted applications without domains, with what
belongs to those; then forgotten zones. -/
def purgeRows (now : Time) (db : Database) : Database :=
  let keptDomains := db.domains.filter fun domain => !domain.purgeable now
  let keptApplications := db.applications.filter fun application =>
    !(application.deletedAt.isSome &&
      (application.purgeAfter.any fun purgeAfter => decide (purgeAfter ≤ now)) &&
      !keptDomains.any fun domain => domain.applicationId == application.id)
  let keeps (id : Uuid) : Bool := keptApplications.any fun application => application.id == id
  let keptSubscriptions := db.subscriptions.filter fun subscription =>
    keeps subscription.applicationId
  { db with
    domains := keptDomains
    applications := keptApplications
    origins := db.origins.filter fun origin => keeps origin.applicationId
    credentials := db.credentials.filter fun credential => keeps credential.applicationId
    assertionKeys := db.assertionKeys.filter fun key => keeps key.applicationId
    subscriptions := keptSubscriptions
    deliveries := db.deliveries.filter fun delivery => keeps delivery.applicationId
    events := db.events.filter fun event =>
      keeps event.applicationId && keptDomains.any fun domain => domain.id == event.domainId
    zones := db.zones.filter fun zone =>
      !(decide (zone.expiresAt ≤ now - zoneRetention) &&
        !keptDomains.any fun domain => domain.zone == some zone.zone)
    connectSessions := db.connectSessions.filter fun session =>
      keeps session.applicationId && keptDomains.any fun domain => domain.id == session.domainId
    idempotencyKeys := (db.idempotencyKeys.filter fun record => keeps record.applicationId).map
      fun record =>
        if record.domainId.all fun id => keptDomains.any fun domain => domain.id == id then record
        else { record with domainId := none } }

/-- Expired tombstones go, and what belongs to them cascades. -/
def purgeDomains (now : Time) (db : Database) : Database :=
  let kept := db.domains.filter fun domain => !domain.purgeable now
  { db with
    domains := kept
    events := db.events.filter fun event => kept.any fun domain => domain.id == event.domainId
    connectSessions := db.connectSessions.filter fun session =>
      kept.any fun domain => domain.id == session.domainId
    idempotencyKeys := db.idempotencyKeys.map fun record =>
      if record.domainId.all fun id => kept.any fun domain => domain.id == id then record
      else { record with domainId := none } }

/-- The application is deleted, past its retention, and has no domain row. -/
def Application.purgeable (application : Application) (now : Time) (domains : List Domain) :
    Bool :=
  application.deletedAt.isSome &&
    (application.purgeAfter.any fun purgeAfter => decide (purgeAfter ≤ now)) &&
    !domains.any fun domain => domain.applicationId == application.id

/-- Such applications go, and what belongs to them cascades. -/
def purgeApplications (now : Time) (db : Database) : Database :=
  let kept := db.applications.filter fun application => !application.purgeable now db.domains
  let keeps (id : Uuid) : Bool := kept.any fun application => application.id == id
  { db with
    applications := kept
    origins := db.origins.filter fun origin => keeps origin.applicationId
    credentials := db.credentials.filter fun credential => keeps credential.applicationId
    assertionKeys := db.assertionKeys.filter fun key => keeps key.applicationId
    subscriptions := db.subscriptions.filter fun subscription => keeps subscription.applicationId
    deliveries := db.deliveries.filter fun delivery => keeps delivery.applicationId
    events := db.events.filter fun event => keeps event.applicationId
    connectSessions := db.connectSessions.filter fun session => keeps session.applicationId
    idempotencyKeys := db.idempotencyKeys.filter fun record => keeps record.applicationId }

/-- Zones that expired long ago and that no domain refers to go. -/
def forgetZones (now : Time) (db : Database) : Database :=
  { db with
    zones := db.zones.filter fun zone =>
      !(decide (zone.expiresAt ≤ now - zoneRetention) &&
        !db.domains.any fun domain => domain.zone == some zone.zone) }

/-- `DELETE FROM domains ...`; returns the number of rows. -/
def deleteExpiredDomains (now : Time) : Sql Nat :=
  .write
    (fun view => (view.domains.filter fun domain => domain.purgeable now).map fun domain =>
      .domain domain.id)
    (fun _ db => purgeDomains now db)
    fun view => .pure (view.domains.filter fun domain => domain.purgeable now).length

/-- `DELETE FROM applications ...`.  The foreign key of `domains` restricts it: the
statement fails where a domain refers to a row that goes. -/
def deleteEmptyApplications (now : Time) : Sql Unit :=
  .write
    (fun view => (view.applications.filter fun application =>
      application.purgeable now view.domains).map fun application => .application application.id)
    (fun _ db => purgeApplications now db)
    fun view =>
      if (view.applications.any fun application => application.purgeable now view.domains &&
          view.domains.any fun domain => domain.applicationId == application.id) then
        .raise (.integrityError "fk_domains_application_id_applications")
      else .pure ()

/-- `purge_zones`. -/
def purgeZones (now : Time) : Sql Unit :=
  .write (fun _ => []) (fun _ db => forgetZones now db) fun _ => .pure ()

/-- `purge_tombstones`; returns the number of domains removed. -/
def purgeTombstones (now : Time) : Sql Nat := do
  let removed ← deleteExpiredDomains now
  deleteEmptyApplications now
  purgeZones now
  pure removed

/-- The three statements together. -/
theorem purgeRows_eq (now : Time) (db : Database) :
    purgeRows now db = forgetZones now (purgeApplications now (purgeDomains now db)) := by
  unfold purgeRows forgetZones purgeApplications purgeDomains Application.purgeable
  simp only [List.filter_filter, List.filter_map, Database.mk.injEq, true_and]
  congr 1
  refine List.filter_congr fun record _ => ?_
  dsimp only [Function.comp]
  split <;> rfl

/-- The purge never fails: an application goes only when no domain refers to it. -/
theorem purgeTombstones_run (now : Time) (db : Database) :
    (purgeTombstones now).run db =
      (.ok (db.domains.filter fun domain => domain.purgeable now).length, purgeRows now db) := by
  rw [purgeRows_eq]
  have empty : ((purgeDomains now db).applications.any fun application =>
      application.purgeable now (purgeDomains now db).domains &&
        (purgeDomains now db).domains.any fun domain =>
          domain.applicationId == application.id) = false := by
    rw [List.any_eq_false]
    intro application _
    unfold Application.purgeable
    cases (purgeDomains now db).domains.any fun domain => domain.applicationId == application.id
      <;> simp
  change Program.run ((if _ then _ else _ : Sql Unit) >>= _) _ = _
  rw [if_neg (by rw [empty]; exact Bool.false_ne_true)]
  rfl

end CustomDomain
