import CustomDomain.Hostname
import CustomDomain.PythonJson
import CustomDomain.TransactionProgram

/-!
# Stored records

The tables of `app/models`: enumerations, rows, and the database the service
operations work on.  A domain row is kept together with its ownership claims
and its checks, which belong to it and go with it; every other relation is by
identifier.  Times are microseconds of UTC, identifiers and tokens are drawn by
the caller of an operation.
-/

namespace CustomDomain

abbrev Uuid := Nat

/-- `uuid.UUID.hex`. -/
def uuidHex (id : Uuid) : String :=
  let digits := Nat.toDigits 16 id
  String.ofList (List.replicate (32 - digits.length) '0' ++ digits)

/-- `str(uuid)`: the digits in groups of 8, 4, 4, 4 and 12. -/
def uuidText (id : Uuid) : String :=
  let digits := (uuidHex id).toList
  String.ofList (digits.take 8 ++ '-' :: (digits.drop 8).take 4 ++ '-' ::
    (digits.drop 12).take 4 ++ '-' :: (digits.drop 16).take 4 ++ '-' :: digits.drop 20)

/-- Microseconds since the epoch, and differences of them. -/
abbrev Time := Int

def seconds (count : Int) : Time := count * 1000000

def minutes (count : Int) : Time := seconds (60 * count)

def hours (count : Int) : Time := minutes (60 * count)

def days (count : Int) : Time := hours (24 * count)

/-! ## Enumerations -/

inductive ApplicationStatus where
  | active
  | suspended
  deriving DecidableEq

inductive OriginStatus where
  | pending
  | verified
  | failed
  | retired
  deriving DecidableEq

/-- The `Host` the edge sends to the origin. -/
inductive OriginHostHeader where
  | customer
  | origin
  deriving DecidableEq

inductive OriginScheme where
  | https
  | http
  deriving DecidableEq

inductive DomainStatus where
  | pendingDns
  | provisioning
  | ready
  | attentionRequired
  | suspended
  | deleting
  deriving DecidableEq

def DomainStatus.value : DomainStatus → String
  | .pendingDns => "pending_dns"
  | .provisioning => "provisioning"
  | .ready => "ready"
  | .attentionRequired => "attention_required"
  | .suspended => "suspended"
  | .deleting => "deleting"

inductive ClaimStatus where
  | pending
  | verified
  | revoked
  deriving DecidableEq

inductive CheckType where
  | ownership
  | routing
  | certificate
  | origin
  deriving DecidableEq

/-- The members of the enumeration, in its order. -/
def CheckType.all : List CheckType := [.ownership, .routing, .certificate, .origin]

theorem CheckType.mem_all (checkType : CheckType) : checkType ∈ CheckType.all := by
  cases checkType <;> decide

def CheckType.value : CheckType → String
  | .ownership => "ownership"
  | .routing => "routing"
  | .certificate => "certificate"
  | .origin => "origin"

inductive CheckStatus where
  | pending
  | passing
  | failing
  deriving DecidableEq

inductive VerificationMethod where
  | dnsTxt
  | legacyImport
  deriving DecidableEq

inductive CredentialScope where
  | full
  | read
  deriving DecidableEq

/-! ## Rows -/

structure Application where
  id : Uuid
  slug : String
  name : String
  status : ApplicationStatus := .active
  cnameTarget : String
  workspaceProbeEnabled : Bool := true
  maxDomains : Option Int := none
  rateLimitPerMinute : Option Int := none
  rateLimitPerSecond : Option Int := none
  deletedAt : Option Time := none
  purgeAfter : Option Time := none
  deriving DecidableEq

structure VerifiedOrigin where
  id : Uuid
  applicationId : Uuid
  scheme : OriginScheme
  host : String
  port : Nat
  hostHeader : OriginHostHeader
  status : OriginStatus := .pending
  isActive : Bool := false
  verificationToken : Option String
  verifiedAt : Option Time := none
  lastCheckedAt : Option Time := none
  lastErrorCode : Option String := none
  lastErrorMessage : Option String := none
  deriving DecidableEq

structure ApiCredential where
  id : Uuid
  applicationId : Uuid
  keyHash : String
  scope : CredentialScope := .full
  lastUsedAt : Option Time := none
  expiresAt : Option Time := none
  revokedAt : Option Time := none
  deriving DecidableEq

/-- An application's own key for the edge's signed assertion. -/
structure AssertionKey where
  applicationId : Uuid
  keyId : String
  secret : String
  activeFrom : Time
  createdAt : Time
  revokedAt : Option Time := none
  deriving DecidableEq

/-- The databases of the service. -/
inductive Backend where
  | sqlite
  | postgresql
  deriving DecidableEq

/-- Whether a column of text can hold the text: PostgreSQL refuses a NUL. -/
def Backend.stores : Backend → String → Bool
  | .sqlite, _ => true
  | .postgresql, text => !text.toList.contains '\x00'

/-- The size of the column `txt_record_name`. -/
def maxRecordNameLength : Nat := 253

/-- Whether the column `txt_record_name` can hold the name: SQLite ignores the size. -/
def Backend.storesName : Backend → String → Bool
  | .sqlite, _ => true
  | .postgresql, name => name.length ≤ maxRecordNameLength

/-- The DNS challenge a customer must publish to prove control. -/
structure OwnershipClaim where
  id : Uuid
  txtRecordName : String
  token : String
  cnameTarget : String
  status : ClaimStatus := .pending
  verificationMethod : Option VerificationMethod := none
  verifiedAt : Option Time := none
  revokedAt : Option Time := none
  createdAt : Time
  deriving DecidableEq

def OwnershipClaim.txtRecordValue (claim : OwnershipClaim) : String :=
  "custom-domain-verify=" ++ claim.token

/-- The `details` of a check: what the outcome reported, and the counters of
`schedule_next`. -/
structure CheckDetails where
  fields : List (String × List String) := []
  attempts : Option Nat := none
  failingSince : Option Time := none
  deriving DecidableEq

structure DomainCheck where
  checkType : CheckType
  status : CheckStatus := .pending
  errorCode : Option String := none
  message : Option String := none
  details : Option CheckDetails := none
  observedAt : Option Time := none
  nextCheckAt : Option Time := none
  deriving DecidableEq

/-- A customer hostname registered by one application for one workspace. -/
structure Domain where
  id : Uuid
  applicationId : Uuid
  hostname : String
  reference : String
  status : DomainStatus := .pendingDns
  deletedAt : Option Time := none
  purgeAfter : Option Time := none
  zone : Option String := none
  connectStartedAt : Option Time := none
  createdAt : Time
  updatedAt : Time
  claims : List OwnershipClaim := []
  checks : List DomainCheck := []
  deriving DecidableEq

namespace Domain

def isDeleted (domain : Domain) : Bool := domain.deletedAt.isSome

def isLive (domain : Domain) : Bool := !domain.isDeleted

/-- The first claim that is not revoked. -/
def activeClaim (domain : Domain) : Option OwnershipClaim :=
  domain.claims.find? fun claim => claim.status ≠ .revoked

def check (domain : Domain) (checkType : CheckType) : Option DomainCheck :=
  domain.checks.find? fun check => check.checkType = checkType

end Domain

/-- What an event records.  Each constructor is one `EventType` together with
its payload. -/
inductive EventPayload where
  | domainCreated (hostname reference : String)
  | domainImported (upstream : Option String) (grandfathered : Bool)
  | claimIssued (claimId : Uuid) (txtRecordName : String)
  | claimVerified (claimId : Uuid) (method : VerificationMethod)
  | claimRevoked (claimId : Uuid) (reason : String)
  | checkUpdated (check : CheckType) (previous : Option CheckStatus) (status : CheckStatus)
      (errorCode : Option String)
  | statusChanged (previous status : DomainStatus) (reason : Option String)
  | domainDeleted (hostname : String) (purgeAfter : Time)
  | recheckRequested (requestedBy : String)
  | connectUrlIssued (provider signer : Option String)
  deriving DecidableEq

structure DomainEvent where
  domainId : Uuid
  applicationId : Uuid
  payload : EventPayload
  createdAt : Time
  deriving DecidableEq

inductive WebhookEventType where
  | ready
  | attentionRequired
  | recovered
  | deleted
  deriving DecidableEq

structure WebhookSubscription where
  id : Uuid
  applicationId : Uuid
  url : String
  events : List WebhookEventType
  secret : String
  previousSecret : Option String := none
  previousSecretExpiresAt : Option Time := none
  revokedAt : Option Time := none
  createdAt : Time
  deriving DecidableEq

def WebhookSubscription.isActive (subscription : WebhookSubscription) : Bool :=
  subscription.revokedAt.isNone

/-- What the `id` of a delivery stands for: a subscription and an event, of
which the unique constraint allows one row.  An event is named by its domain
and its stamp, which `record_event` keeps apart. -/
structure DeliveryId where
  subscriptionId : Uuid
  domainId : Uuid
  recordedAt : Time
  deriving DecidableEq

/-- One event for one subscription; `domain` is the resource as it was when
the event was recorded. -/
structure WebhookDelivery where
  subscriptionId : Uuid
  applicationId : Uuid
  event : DomainEvent
  eventType : WebhookEventType
  domain : Domain
  attempts : Nat := 0
  nextAttemptAt : Option Time
  deliveredAt : Option Time := none
  abandonedAt : Option Time := none
  lastAttemptAt : Option Time := none
  lastStatus : Option Int := none
  lastError : Option String := none
  createdAt : Time
  deriving DecidableEq

def WebhookDelivery.id (delivery : WebhookDelivery) : DeliveryId :=
  ⟨delivery.subscriptionId, delivery.event.domainId, delivery.event.createdAt⟩

/-- A row of `edge_locks`; updating it takes the lock. -/
structure EdgeLock where
  name : String
  holder : Option String := none
  deriving DecidableEq

structure DnsZone where
  zone : String
  expiresAt : Time
  deriving DecidableEq

/-- A link to the setup page of one domain; the token itself is not stored. -/
structure ConnectSession where
  id : Uuid
  applicationId : Uuid
  domainId : Uuid
  tokenHash : String
  expiresAt : Time
  revokedAt : Option Time := none
  appName : Option String := none
  returnUrl : Option String := none
  createdAt : Time
  deriving DecidableEq

/-- The outcome of a create request, kept under the key it was sent with. -/
structure IdempotencyKey where
  applicationId : Uuid
  key : String
  requestHash : String
  domainId : Option Uuid := none
  createdAt : Time
  expiresAt : Time
  deriving DecidableEq

structure Database where
  applications : List Application := []
  origins : List VerifiedOrigin := []
  credentials : List ApiCredential := []
  assertionKeys : List AssertionKey := []
  domains : List Domain := []
  events : List DomainEvent := []
  subscriptions : List WebhookSubscription := []
  deliveries : List WebhookDelivery := []
  edgeLocks : List EdgeLock := []
  zones : List DnsZone := []
  connectSessions : List ConnectSession := []
  idempotencyKeys : List IdempotencyKey := []
  deriving DecidableEq

/-! ## Lookups and row changes -/

namespace Database

variable (db : Database)

def application? (id : Uuid) : Option Application :=
  db.applications.find? fun application => application.id = id

def domain? (id : Uuid) : Option Domain :=
  db.domains.find? fun domain => domain.id = id

/-- The live row of a hostname, which the partial unique index keeps single. -/
def liveByHostname (hostname : String) : Option Domain :=
  db.domains.find? fun domain => domain.isLive && domain.hostname == hostname

def updateApplication (id : Uuid) (change : Application → Application) : Database :=
  { db with
    applications := db.applications.map fun application =>
      if application.id = id then change application else application }

def updateDomain (id : Uuid) (change : Domain → Domain) : Database :=
  { db with
    domains := db.domains.map fun domain => if domain.id = id then change domain else domain }

def subscription? (id : Uuid) : Option WebhookSubscription :=
  db.subscriptions.find? fun subscription => subscription.id = id

def delivery? (id : DeliveryId) : Option WebhookDelivery :=
  db.deliveries.find? fun delivery => delivery.id = id

def updateSubscription (id : Uuid) (change : WebhookSubscription → WebhookSubscription) :
    Database :=
  { db with
    subscriptions := db.subscriptions.map fun subscription =>
      if subscription.id = id then change subscription else subscription }

def updateDelivery (id : DeliveryId) (change : WebhookDelivery → WebhookDelivery) : Database :=
  { db with
    deliveries := db.deliveries.map fun delivery =>
      if delivery.id = id then change delivery else delivery }

def updateOrigin (id : Uuid) (change : VerifiedOrigin → VerifiedOrigin) : Database :=
  { db with
    origins := db.origins.map fun origin => if origin.id = id then change origin else origin }

/-- Live domains, of one application or of all. -/
def liveDomains (application : Option Uuid) : List Domain :=
  db.domains.filter fun domain =>
    domain.isLive && (application.all fun id => decide (domain.applicationId = id))

end Database

/-! ## Errors and lockable rows -/

inductive LimitScope where
  | application
  | deployment
  deriving DecidableEq

/-- The errors of `app/services/errors.py` that the modelled operations raise,
and the database errors they let through. -/
inductive ServiceError where
  | invalidApplication (message : String)
  | applicationAlreadyExists (slug : String)
  | applicationNotFound
  | applicationSuspended
  | applicationNotEmpty (live : Nat)
  | confirmationMismatch
  | domainLimitReached (scope : LimitScope) (limit : Int) (live : Nat)
  | hostnameAlreadyClaimed (hostname : String)
  | domainNotFound
  | invalidHostname (refused : InvalidHostname)
  | invalidReference
  | invalidStatusTransition (message : String)
  | invalidOrigin (message : String)
  | originConflict
  | originNotFound
  | originNotVerified
  | originInUse
  | rateLimited (message : String) (retryAfter : Int)
  | invalidLimit (message : String)
  | invalidAssertionKey (message : String)
  | assertionKeyNotFound (keyId : String)
  | webhookNotFound
  | invalidWebhook (message : String)
  | deliveryNotFound
  | domainConnectUnavailable (message : String) (details : List (String × Option String) := [])
  | invalidConnectRequest (message field : String)
  | connectPageUnavailable (message : String)
  | invalidIdempotencyKey (message : String)
  | idempotencyKeyReused (message : String)
  | idempotencyInProgress (message : String)
  | integrityError (constraint : String)
  | dataError
  | staleData
  deriving DecidableEq

/-- What a statement can lock: a row, or an entry of a unique index. -/
inductive Row where
  | application (id : Uuid)
  | slug (slug : String)
  | origin (id : Uuid)
  | credential (id : Uuid)
  | domain (id : Uuid)
  | liveHostname (hostname : String)
  | claim (id : Uuid)
  | liveClaim (domainId : Uuid)
  | token (token : String)
  | check (domainId : Uuid) (checkType : CheckType)
  | edgeLock (name : String)
  | subscription (id : Uuid)
  | delivery (id : DeliveryId)
  | connectSession (id : Uuid)
  | tokenHash (hash : String)
  | idempotencyKey (applicationId : Uuid) (key : String)
  | assertionKey (keyId : String)
  deriving DecidableEq

/-- The service's database, with Caddy's admin API as the one thing outside
that transactions write to. -/
abbrev store : Transaction.World where
  Db := Database
  Row := Row
  Error := ServiceError
  Effect := PythonJson.Json

abbrev Sql := Transaction.Program store

end CustomDomain
