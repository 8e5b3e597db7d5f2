import CustomDomain.DomainService

/-!
# Applications and their origins

`app/services/applications.py`: the tenant, its CNAME target and limits, the
origins its traffic is proxied to, and its deletion.
-/

namespace CustomDomain

open Transaction PythonText

/-- `MAX_RATE` of `app/edge/config.py`. -/
def maxRate : Int := 1000000

def isSlugEnd (character : Char) : Bool :=
  ('a' ≤ character && character ≤ 'z') || character.isDigit

def slugShape : List Char → Bool
  | [] => false
  | first :: rest =>
      isSlugEnd first && rest.all (fun character => isSlugEnd character || character == '-') &&
        isSlugEnd ((first :: rest).getLast (List.cons_ne_nil first rest)) && rest.length ≤ 63

/-- `_SLUG_RE.match`: the pattern's `$` also matches before a final newline. -/
def matchesSlug (slug : List Char) : Bool :=
  slugShape slug || (slug.getLast? == some '\n' && slugShape slug.dropLast)

/-! ## Statements -/

def Application.patch (before after stored : Application) : Application :=
  { stored with
    slug := column before.slug after.slug stored.slug
    name := column before.name after.name stored.name
    status := column before.status after.status stored.status
    cnameTarget := column before.cnameTarget after.cnameTarget stored.cnameTarget
    workspaceProbeEnabled := column before.workspaceProbeEnabled after.workspaceProbeEnabled
      stored.workspaceProbeEnabled
    maxDomains := column before.maxDomains after.maxDomains stored.maxDomains
    rateLimitPerMinute := column before.rateLimitPerMinute after.rateLimitPerMinute
      stored.rateLimitPerMinute
    rateLimitPerSecond := column before.rateLimitPerSecond after.rateLimitPerSecond
      stored.rateLimitPerSecond
    deletedAt := column before.deletedAt after.deletedAt stored.deletedAt
    purgeAfter := column before.purgeAfter after.purgeAfter stored.purgeAfter }

/-- `UPDATE applications ...`, with `updated_at` always among its columns. -/
def flushApplication (before after : Application) : Sql Unit :=
  .write
    (fun _ => if after.slug = before.slug then [.application before.id]
      else [.application before.id, .slug after.slug])
    (fun _ db => db.updateApplication before.id (Application.patch before after))
    fun view =>
      if (view.applications.any fun other => other.id != before.id && other.slug == after.slug) then
        .raise (.integrityError "applications_slug_key")
      else if (view.application? before.id).isSome then .pure ()
      else .raise .staleData

/-- `INSERT INTO applications ...` in a savepoint; returns whether it went in. -/
def insertApplication (application : Application) : Sql Bool :=
  let conflict (view : Database) : Bool := view.applications.any fun other =>
    other.id == application.id || other.slug == application.slug
  .write
    (fun view => if conflict view then [] else [.application application.id, .slug application.slug])
    (fun view db =>
      if conflict view then db
      else { db with applications := db.applications ++ [application] })
    fun view => .pure !conflict view

def VerifiedOrigin.patch (before after stored : VerifiedOrigin) : VerifiedOrigin :=
  { stored with
    hostHeader := column before.hostHeader after.hostHeader stored.hostHeader
    status := column before.status after.status stored.status
    isActive := column before.isActive after.isActive stored.isActive
    verifiedAt := column before.verifiedAt after.verifiedAt stored.verifiedAt
    lastCheckedAt := column before.lastCheckedAt after.lastCheckedAt stored.lastCheckedAt
    lastErrorCode := column before.lastErrorCode after.lastErrorCode stored.lastErrorCode
    lastErrorMessage := column before.lastErrorMessage after.lastErrorMessage
      stored.lastErrorMessage }

/-- What is written over a stored origin counts only there. -/
theorem Database.updateOrigin_congr {db : Database} (keyed : (db.origins.map (·.id)).Nodup)
    {origin : VerifiedOrigin} (member : origin ∈ db.origins)
    {change other : VerifiedOrigin → VerifiedOrigin} (same : change origin = other origin) :
    db.updateOrigin origin.id change = db.updateOrigin origin.id other := by
  simp only [Database.updateOrigin, Database.mk.injEq, and_true, true_and]
  refine List.map_congr_left fun stored present => ?_
  split
  next here => rw [List.inj_on_of_nodup_map keyed present member here, same]
  next => rfl

/-- `UPDATE verified_origins ...`, under the index that allows one active
origin per application. -/
def flushOrigin (before after : VerifiedOrigin) : Sql Unit :=
  if after = before then .pure ()
  else
    .write
      (fun _ => [.origin before.id])
      (fun _ db => db.updateOrigin before.id (VerifiedOrigin.patch before after))
      fun view =>
        if after.isActive = true ∧ (view.origins.any fun other =>
            other.applicationId == before.applicationId && other.id != before.id &&
              other.isActive) = true then
          .raise (.integrityError "ux_verified_origins_one_active")
        else if (view.origins.any fun origin => origin.id == before.id) then .pure ()
        else .raise .staleData

/-- `INSERT INTO verified_origins ...` in a savepoint; returns whether it went
in. -/
def insertOrigin (origin : VerifiedOrigin) : Sql Bool :=
  let conflict (view : Database) : Bool :=
    (view.application? origin.applicationId).isNone ||
      view.origins.any fun other =>
        other.id == origin.id ||
          (other.applicationId == origin.applicationId && other.scheme == origin.scheme &&
            other.host == origin.host && other.port == origin.port)
  .write
    (fun view => if conflict view then [] else [.origin origin.id])
    (fun view db =>
      if conflict view then db else { db with origins := db.origins ++ [origin] })
    fun view => .pure !conflict view

/-! ## Applications -/

/-- `create_application`; `id` is the identifier drawn for the row. -/
def createApplication (environment : Environment) (slug name cnameTarget : String) (id : Uuid) :
    Sql Application := do
  Program.require (matchesSlug slug.toList = true)
    (.invalidApplication "Slug must be lowercase letters, digits and hyphens (1-64 characters)")
  Program.require ((strip name).isEmpty = false) (.invalidApplication "Name is required")
  match canonicalize environment.tables cnameTarget true with
  | .error refused =>
      .raise (.invalidApplication ("CNAME target is not valid: " ++ refused.message))
  | .ok target =>
      let application : Application :=
        { id := id, slug := slug, name := strip name, cnameTarget := target }
      let inserted ← insertApplication application
      Program.require (inserted = true) (.applicationAlreadyExists slug)
      pure application

/-- `get_application`: a deleted application is not found. -/
def getApplication (id : Uuid) : Sql Application := do
  let found ← .read fun view => view.application? id
  match found with
  | none => .raise .applicationNotFound
  | some application =>
      if application.deletedAt.isSome then .raise .applicationNotFound else pure application

/-- `rename_application`. -/
def renameApplication (application : Application) (name : String) : Sql Application := do
  Program.require ((strip name).isEmpty = false) (.invalidApplication "Name is required")
  Program.require ((strip name).length ≤ 200)
    (.invalidApplication "Name must be at most 200 characters")
  let after := { application with name := strip name }
  flushApplication application after
  pure after

/-- One window of `set_rate_limits`. -/
def requireRate (name : String) : Option Int → Sql Unit
  | none => .pure ()
  | some value =>
      Program.require (1 ≤ value ∧ value ≤ maxRate)
        (.invalidApplication ("Requests " ++ name ++ " must be 1 to 1,000,000, or none"))

/-- `set_rate_limits`. -/
def setRateLimits (application : Application) (perMinute perSecond : Option Int) :
    Sql Application := do
  requireRate "per minute" perMinute
  requireRate "per second" perSecond
  let after :=
    { application with rateLimitPerMinute := perMinute, rateLimitPerSecond := perSecond }
  flushApplication application after
  pure after

/-- `set_domain_limit`. -/
def setDomainLimit (application : Application) (maxDomains : Option Int) : Sql Application := do
  Program.require (∀ value ∈ maxDomains, 1 ≤ value)
    (.invalidApplication "A domain limit must be at least 1, or none for no limit")
  let after := { application with maxDomains := maxDomains }
  flushApplication application after
  pure after

/-- `set_application_status`. -/
def setApplicationStatus (application : Application) (status : ApplicationStatus) :
    Sql Application :=
  if status = application.status then .pure application
  else do
    let after := { application with status := status }
    flushApplication application after
    pure after

/-- The workspace probe switch of the operator API. -/
def setWorkspaceProbe (application : Application) (enabled : Bool) : Sql Application :=
  if enabled = application.workspaceProbeEnabled then .pure application
  else do
    let after := { application with workspaceProbeEnabled := enabled }
    flushApplication application after
    pure after

/-- `set_cname_target`; returns the application as the session now holds it. -/
def setCnameTarget (environment : Environment) (application : Application)
    (cnameTarget : String) : Sql Application :=
  match canonicalize environment.tables cnameTarget true with
  | .error refused =>
      .raise (.invalidApplication ("CNAME target is not valid: " ++ refused.message))
  | .ok target => do
      let after := { application with cnameTarget := target }
      flushApplication application after
      pure after

/-! ## Deletion -/

/-- The slug of an archived application; `~` cannot occur in a real one. -/
def archivedSlug (application : Application) : String :=
  String.ofList (application.slug.toList.take 46 ++ '~' :: (uuidHex application.id).toList.take 12)

/-- `UPDATE api_credentials ...` for one credential of the application. -/
def revokeCredentialRow (credential : ApiCredential) (now : Time) : Sql Unit :=
  if credential.revokedAt.isSome then .pure ()
  else
    .write (fun _ => [.credential credential.id])
      (fun _ db =>
        { db with
          credentials := db.credentials.map fun stored =>
            if stored.id = credential.id then { stored with revokedAt := some now } else stored })
      fun _ => .pure ()

/-- The live domains `delete_application` walks. -/
def liveDomainIds (application : Application) (view : Database) : List Uuid :=
  (view.liveDomains (some application.id)).map (·.id)

/-- The application as `delete_application` leaves it. -/
def Application.archived (application : Application) (latestPurge : Option Time) (now : Time) :
    Application :=
  { application with
    status := .suspended
    deletedAt := some now
    purgeAfter := some (match latestPurge with
      | some latest => max latest (now + tombstoneRetention)
      | none => now + tombstoneRetention)
    slug := archivedSlug application }

/-- `delete_application`; returns the number of live domains deleted with it. -/
def deleteApplication (application : Application) (confirmSlug : String) (deleteDomains : Bool)
    (now : Time) : Sql Nat := do
  Program.require (strip confirmSlug = application.slug) .confirmationMismatch
  let live ← countLive (some application.id)
  Program.require (live = 0 ∨ deleteDomains = true) (.applicationNotEmpty live)
  let ids ← .read (liveDomainIds application)
  Program.foldEach ids () fun _ domainId => do
    let _ ← deleteDomain application domainId now
    pure ()
  let credentials ← .read fun view =>
    view.credentials.filter fun credential => credential.applicationId = application.id
  let origins ← .read fun view =>
    view.origins.filter fun origin => origin.applicationId = application.id
  Program.foldEach credentials () fun _ credential => revokeCredentialRow credential now
  Program.foldEach origins () fun _ origin =>
    flushOrigin origin { origin with isActive := false, status := .retired }
  let latestPurge ← .read fun view =>
    ((view.domains.filter fun domain => domain.applicationId = application.id).filterMap
      (·.purgeAfter)).max?
  flushApplication application (application.archived latestPurge now)
  pure live

/-! ## Origins -/

def parseHostHeader (value : String) : Option OriginHostHeader :=
  let mode := lower (strip value)
  if mode = "customer" then some .customer
  else if mode = "origin" then some .origin
  else none

def parseScheme (value : String) : Option OriginScheme :=
  if lower value = "https" then some .https
  else if lower value = "http" then some .http
  else none

def OriginScheme.value : OriginScheme → String
  | .https => "https"
  | .http => "http"

def OriginScheme.defaultPort : OriginScheme → Int
  | .https => 443
  | .http => 80

/-- What a registration draws. -/
structure FreshOrigin where
  id : Uuid
  token : String

/-- `register_origin`; a missing port and port 0 both mean the default. -/
def registerOrigin (environment : Environment) (application : Application)
    (host scheme : String) (port : Option Int) (hostHeader : String) (fresh : FreshOrigin) :
    Sql VerifiedOrigin :=
  match parseHostHeader hostHeader with
  | none => .raise (.invalidOrigin "Host header mode must be customer or origin")
  | some mode =>
      match parseScheme scheme with
      | none => .raise (.invalidOrigin "Scheme must be https or http")
      | some scheme =>
          match canonicalize environment.tables host true with
          | .error refused =>
              .raise (.invalidOrigin ("Origin host is not valid: " ++ refused.message))
          | .ok canonical => do
              let port : Int := match port with
                | some 0 => scheme.defaultPort
                | some value => value
                | none => scheme.defaultPort
              Program.require (0 < port ∧ port < 65536)
                (.invalidOrigin "Port must be between 1 and 65535")
              let origin : VerifiedOrigin :=
                { id := fresh.id
                  applicationId := application.id
                  scheme := scheme
                  host := canonical
                  port := port.toNat
                  hostHeader := mode
                  verificationToken := some fresh.token }
              let inserted ← insertOrigin origin
              Program.require (inserted = true) .originConflict
              pure origin

/-- `get_origin` by identifier: another application's origin is not found. -/
def getOrigin (application : Application) (originId : Uuid) : Sql VerifiedOrigin := do
  let found ← .read fun view => view.origins.find? fun origin =>
    decide (origin.id = originId) && decide (origin.applicationId = application.id)
  match found with
  | none => .raise .originNotFound
  | some origin => pure origin

/-- `set_origin_host_header`. -/
def setOriginHostHeader (origin : VerifiedOrigin) (hostHeader : String) : Sql VerifiedOrigin :=
  match parseHostHeader hostHeader with
  | none => .raise (.invalidOrigin "Host header mode must be customer or origin")
  | some mode => do
      let after := { origin with hostHeader := mode }
      flushOrigin origin after
      pure after

/-- `record_origin_verification`; `failure` is the code and message of a probe
that failed. -/
def recordOriginVerification (origin : VerifiedOrigin)
    (failure : Option (Option String × Option String)) (now : Time) : Sql VerifiedOrigin := do
  let after := match failure with
    | none =>
        { origin with
          lastCheckedAt := some now
          status := .verified
          verifiedAt := some now
          lastErrorCode := none
          lastErrorMessage := none }
    | some (code, message) =>
        { origin with
          lastCheckedAt := some now
          status := .failed
          lastErrorCode := some (code.getD "origin_verification_failed")
          lastErrorMessage := message
          isActive := false }
  flushOrigin origin after
  pure after

/-- `activate_origin`: the others are switched off by a flush of their own, so
the index never sees two active rows. -/
def activateOrigin (origin : VerifiedOrigin) : Sql VerifiedOrigin := do
  Program.require (origin.status = .verified) .originNotVerified
  let others ← .read fun view => view.origins.filter fun other =>
    decide (other.applicationId = origin.applicationId) && decide (other.id ≠ origin.id) &&
      other.isActive
  Program.foldEach others () fun _ other => flushOrigin other { other with isActive := false }
  let after := { origin with isActive := true }
  flushOrigin origin after
  pure after

/-- `delete_origin`. -/
def deleteOrigin (origin : VerifiedOrigin) : Sql Unit := do
  Program.require (origin.isActive = false) .originInUse
  .write (fun _ => [.origin origin.id])
    (fun _ db => { db with origins := db.origins.filter fun stored => stored.id ≠ origin.id })
    fun _ => .pure ()

/-- `retire_origin`. -/
def retireOrigin (origin : VerifiedOrigin) : Sql VerifiedOrigin := do
  let after := { origin with isActive := false, status := .retired }
  flushOrigin origin after
  pure after

/-- `Application.serving_origin`: the active origin, while its verification
still holds. -/
def servingOrigin (db : Database) (application : Application) : Option VerifiedOrigin :=
  (db.origins.find? fun origin =>
    decide (origin.applicationId = application.id) && origin.isActive).filter fun origin =>
      origin.status == .verified

end CustomDomain
