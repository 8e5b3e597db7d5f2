import CustomDomain.DomainConnect

/-!
# Connect sessions

`create_session` of `app/services/connect_sessions.py`: a link to the setup page
of one domain, with limits that are counted under the application's row lock.
-/

namespace CustomDomain

open Transaction PythonText

def defaultTtl : Time := hours 24

def minTtl : Time := minutes 5

def maxTtl : Time := hours 24

def maxAppName : Nat := 64

def appNameProblem (value : String) : Option String :=
  if (strip value).isEmpty then some "must not be blank"
  else if maxAppName < value.length then some "must be at most 64 characters"
  else if value.toList.any fun character =>
      character.toNat < 0x20 || (0x7F ≤ character.toNat && character.toNat < 0xA0) then
    some "must not contain control characters"
  else none

def pageUrl (baseUrl token : String) : String := baseUrl ++ "/connect/" ++ token

/-- `_enforce_limits`. -/
def enforceSessionLimits (domain : Domain) (now : Time) : Sql Unit := do
  (Budget.sessionsOfDomain domain.id).enforce domain.applicationId now
  Budget.sessions.enforce domain.applicationId now

/-- `INSERT INTO connect_sessions ...`: identifiers and token hashes are unique,
and the application and the domain must exist. -/
def insertSession (session : ConnectSession) : Sql Unit :=
  .write
    (fun _ => [.connectSession session.id, .tokenHash session.tokenHash])
    (fun _ db => { db with connectSessions := db.connectSessions ++ [session] })
    fun view =>
      if (view.connectSessions.any fun other =>
          other.id == session.id || other.tokenHash == session.tokenHash) then
        .raise (.integrityError "connect_sessions")
      else if (view.application? session.applicationId).isNone ∨
          (view.domain? session.domainId).isNone then
        .raise (.integrityError "fk_connect_sessions")
      else .pure ()

/-- What a request for a session says. -/
structure SessionRequest where
  domainId : Uuid
  ttlSeconds : Option Int := none
  appName : Option String := none
  returnUrl : Option String := none
  deriving DecidableEq

/-- `create_session`; `token` and `id` are drawn, and `hashToken` is SHA-256 in
hexadecimal.  Returns the row and the link. -/
def createSession (environment : ConnectEnvironment) (hashToken : String → String)
    (application : Application) (request : SessionRequest) (baseUrl : Option String) (id : Uuid)
    (token : String) (now : Time) : Sql (ConnectSession × String) := do
  let ttl := match request.ttlSeconds with
    | none => defaultTtl
    | some count => seconds count
  Program.require (minTtl ≤ ttl ∧ ttl ≤ maxTtl)
    (.invalidConnectRequest "ttl_seconds must be between 300 and 86400" "ttl_seconds")
  requireField "app_name" appNameProblem request.appName
  requireField "return_url" (redirectUriProblem environment) request.returnUrl
  lockApplication application.id
  let domain ← getDomain application request.domainId false
  match baseUrl with
  | none =>
      .raise (.connectPageUnavailable
        "This deployment serves no setup page: it needs PUBLIC_API=true and EDGE_HOSTNAME")
  | some baseUrl =>
      enforceSessionLimits domain now
      let session : ConnectSession :=
        { id := id
          applicationId := application.id
          domainId := domain.id
          tokenHash := hashToken token
          expiresAt := now + ttl
          appName := request.appName.map strip
          returnUrl := request.returnUrl
          createdAt := now }
      insertSession session
      pure (session, pageUrl baseUrl token)

end CustomDomain
