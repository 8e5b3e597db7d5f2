import CustomDomain.RateLimits
import CustomDomain.Worker

/-!
# One-step setup with Domain Connect

The transactions of `app/services/domain_connect.py`: `prepare_connect`, which
decides whether an apply URL may be handed out and counts the earlier ones;
`record_connect`, when it is handed out, after it was signed outside of any
transaction; and `connect_returned`, when the customer is back from the provider.
-/

namespace CustomDomain

open Transaction

/-- Statuses a domain may be connected in. -/
def connectable : List DomainStatus := [.pendingDns, .provisioning, .ready, .attentionRequired]

/-- What `prepare_connect` found, as far as `record_connect` uses it. -/
structure ConnectPlan where
  domainId : Uuid
  applicationId : Uuid
  claimToken : String
  providerId : Option String
  signer : Option String
  deriving DecidableEq

/-- What `urlsplit` makes of a URL, as far as `https_url_problem` looks at it. -/
structure UrlParts where
  scheme : String
  netloc : String
  hostname : Option String
  username : Option String
  password : Option String
  fragment : String

/-- What the connect modules take from the Python library and from the
deployment: how a URL is split, where `none` is a `ValueError`, and the one-step
setup a domain's zone and the signer in effect allow, else its setup method. -/
structure ConnectEnvironment where
  urlsplit : String → Option UrlParts
  setup : Database → Domain → Except (Option String) (Option String × Option String)

/-- `https_url_problem`. -/
def httpsUrlProblem (environment : ConnectEnvironment) (value : String) : Option String :=
  if value.toList.any fun character => character.toNat < 0x21 || character.toNat == 0x7F then
    some "must not contain spaces or control characters"
  else
    match environment.urlsplit value with
    | none => some "is not a valid URL"
    | some parts =>
        if parts.scheme ≠ "https" then some "must be an https URL"
        else if parts.hostname.all (·.isEmpty) then some "must have a host"
        else if parts.username.isSome ∨ parts.password.isSome ∨ '@' ∈ parts.netloc.toList then
          some "must not contain a user name or password"
        else if parts.fragment.isEmpty = false ∨ '#' ∈ value.toList then
          some "must not contain a fragment"
        else none

/-- `MAX_REDIRECT_URI`. -/
def maxRedirectUri : Nat := 512

/-- `MAX_STATE`. -/
def maxState : Nat := 512

def redirectUriProblem (environment : ConnectEnvironment) (value : String) : Option String :=
  if maxRedirectUri < (PythonText.encodeUtf8 value).length then some "must be at most 512 bytes"
  else httpsUrlProblem environment value

def stateProblem (value : String) : Option String :=
  if maxState < (PythonText.encodeUtf8 value).length then some "must be at most 512 bytes"
  else if value.toList.any fun character => character.toNat < 0x20 || character.toNat == 0x7F then
    some "must not contain control characters"
  else none

/-- Refuse an optional field of a connect request that has a problem. -/
def requireField (field : String) (problem : String → Option String) : Option String → Sql Unit
  | none => .pure ()
  | some value =>
      match problem value with
      | none => .pure ()
      | some problem => .raise (.invalidConnectRequest (field ++ " " ++ problem) field)

/-- `_enforce_limits`. -/
def enforceConnectLimits (domain : Domain) (now : Time) : Sql Unit := do
  (Budget.linksOfDomain domain.id).enforce domain.applicationId now
  Budget.links.enforce domain.applicationId now

/-- `prepare_connect`: reads only. -/
def prepareConnect (environment : ConnectEnvironment) (application : Application)
    (domainId : Uuid) (redirectUri state : Option String) (now : Time) : Sql ConnectPlan := do
  requireField "redirect_uri" (redirectUriProblem environment) redirectUri
  requireField "state" stateProblem state
  let domain ← getDomain application domainId false
  Program.require (domain.status ∈ connectable)
    (.domainConnectUnavailable
      ("A domain in status " ++ domain.status.value ++ " cannot be connected")
      [("status", some domain.status.value)])
  let setup ← .read fun view => environment.setup view domain
  match setup, domain.activeClaim with
  | .ok (providerId, signer), some claim =>
      enforceConnectLimits domain now
      pure
        { domainId := domain.id
          applicationId := application.id
          claimToken := claim.token
          providerId := providerId
          signer := signer }
  | setup, _ =>
      .raise (.domainConnectUnavailable
        "One-step setup is not available for this domain; use setup.guide_url"
        [("method", match setup with
          | .ok _ => some "domain_connect"
          | .error method => method)])

/-- The check has no time, or one after `at_`. -/
def DomainCheck.later (check : DomainCheck) (at_ : Time) : Bool :=
  check.nextCheckAt.all fun current => decide (at_ < current)

/-- `make_checks_due`. -/
def makeChecksDue (domain : Domain) (at_ : Time) : Sql Domain :=
  Program.foldEach domain.checks domain fun domain check =>
    if check.checkType ∈ dnsCheckTypes ∧ check.later at_ = true then
      scheduleCheck domain check at_
    else
      .pure domain

/-- Start the fast recheck: the DNS checks run at `at_` at the latest. -/
def startConnect (domain : Domain) (at_ now : Time) : Sql Domain := do
  let after := { domain with connectStartedAt := some now, updatedAt := now }
  flushDomain domain after
  makeChecksDue after at_

/-- `record_connect`. -/
def recordConnect (application : Application) (plan : ConnectPlan) (now : Time) :
    Sql Domain := do
  lockApplication plan.applicationId
  let domain ← getDomain application plan.domainId false
  Program.require ((domain.activeClaim.map (·.token)) = some plan.claimToken)
    (.domainConnectUnavailable
      "The domain's DNS records changed while the link was signed; request a new one")
  let domain ← startConnect domain (now + fastRecheckInterval) now
  recordEvent domain (.connectUrlIssued plan.providerId plan.signer) now
  pure domain

/-- The transaction of `connect_returned`; `applicationId` was read in one
before it. -/
def connectReturned (domainId applicationId : Uuid) (now : Time) : Sql Bool := do
  lockApplication applicationId
  let found ← selectDomain fun view => (view.domain? domainId).filter (·.isLive)
  match found with
  | none => pure false
  | some loaded =>
      if loaded.domain.status ∈ connectable then
        let _ ← startConnect loaded.domain now now
        pure true
      else
        pure false

end CustomDomain
