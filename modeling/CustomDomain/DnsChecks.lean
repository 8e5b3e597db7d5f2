import CustomDomain.DomainService

/-!
# Ownership and routing checks from DNS

`app/services/dns_checks.py` and the CNAME walk of `app/dns/resolver.py`: what
the DNS says about a domain, when it is asked again, and the status rules the
answers drive.
-/

namespace CustomDomain

open Transaction PythonText

/-- The result of one check. -/
structure Outcome where
  status : CheckStatus
  errorCode : Option String := none
  message : Option String := none
  details : List (String × List String) := []
  deriving DecidableEq

def Outcome.passing (outcome : Outcome) : Bool := outcome.status == .passing

/-! ## Queries -/

inductive DnsError where
  | nameNotFound
  | unavailable (text : String)
  deriving DecidableEq

/-- The resolver the checks ask; each answer is for one query. -/
structure Resolver where
  txt : String → Except DnsError (List String)
  cname : String → Except DnsError (Option String)
  hasAddress : String → Except DnsError Bool

def maxObserved : Nat := 5

/-- `_observed`. -/
def observedValues (values : List String) : List String :=
  (values.take maxObserved).map fun value => String.ofList (value.toList.take 120)

def maxCnameHops : Nat := 8

/-- The hops of `cname_chain` after the first: a name that does not resolve
ends the chain. -/
def followCnames (resolver : Resolver) (stopAt : String) :
    Nat → List String → String → List String
  | 0, chain, _ => chain
  | hops + 1, chain, current =>
      match resolver.cname current with
      | .error _ => chain
      | .ok none => chain
      | .ok (some target) =>
          if target ∈ chain ∨ target = current then chain
          else if target = stopAt then chain ++ [target]
          else followCnames resolver stopAt hops (chain ++ [target]) target

/-- `cname_chain`: an error on the first hop is the caller's to report. -/
def cnameChain (resolver : Resolver) (name stopAt : String) : Except DnsError (List String) :=
  match resolver.cname name with
  | .error error => .error error
  | .ok _ => .ok (followCnames resolver stopAt maxCnameHops [] name)

def claimRevokedOutcome : Outcome where
  status := .failing
  errorCode := some "claim_revoked"
  message := some "The domain has no live ownership claim"

/-- `ownership_outcome`: the TXT record must hold the live claim's value. -/
def ownershipOutcome (resolver : Resolver) (domain : Domain) : Outcome :=
  match domain.activeClaim with
  | none => claimRevokedOutcome
  | some claim =>
      let name := claim.txtRecordName
      match resolver.txt name with
      | .error .nameNotFound =>
          { status := .failing
            errorCode := some "txt_record_not_found"
            message := some ("No TXT record named " ++ name ++ " was found. Create it with the " ++
              "value shown in the domain's DNS records; propagation can take up to the " ++
              "record's TTL.") }
      | .error (.unavailable text) =>
          { status := .failing
            errorCode := some "dns_timeout"
            message := some ("DNS lookup for " ++ name ++ " failed: " ++ text) }
      | .ok [] =>
          { status := .failing
            errorCode := some "txt_record_not_found"
            message := some (name ++ " exists but has no TXT record. Add a TXT record with the " ++
              "value shown in the domain's DNS records.") }
      | .ok values =>
          if values.any fun value => strip value == claim.txtRecordValue then
            { status := .passing, details := [("observed", observedValues values)] }
          else if values.any fun value => domain.claims.any fun other =>
              decide (other.status = .revoked) && strip value == other.txtRecordValue then
            { status := .failing
              errorCode := some "txt_token_stale"
              message := some (name ++ " holds a token from a previous registration of this " ++
                "hostname. Replace it with the current value shown in the domain's DNS records.")
              details := [("observed", observedValues values)] }
          else
            { status := .failing
              errorCode := some "txt_token_mismatch"
              message := some (name ++ " has TXT records, but none is this registration's " ++
                "value. Check that the value was copied exactly, without quotes or extra text.")
              details := [("observed", observedValues values)] }

/-- `routing_outcome`: the CNAME chain must pass through the claim's target. -/
def routingOutcome (resolver : Resolver) (domain : Domain) : Outcome :=
  match domain.activeClaim with
  | none => claimRevokedOutcome
  | some claim =>
      let target := claim.cnameTarget
      match cnameChain resolver domain.hostname target with
      | .error .nameNotFound =>
          { status := .failing
            errorCode := some "cname_not_found"
            message := some (domain.hostname ++ " does not exist in DNS. Add a CNAME record " ++
              "pointing it at " ++ target ++ ".") }
      | .error (.unavailable text) =>
          { status := .failing
            errorCode := some "dns_timeout"
            message := some ("DNS lookup for " ++ domain.hostname ++ " failed: " ++ text) }
      | .ok [] =>
          if resolver.hasAddress domain.hostname matches .ok true then
            { status := .failing
              errorCode := some "cname_not_found"
              message := some (domain.hostname ++ " has A or AAAA records instead of a CNAME. " ++
                "Remove them and add a CNAME record pointing at " ++ target ++ ".") }
          else
            { status := .failing
              errorCode := some "cname_not_found"
              message := some (domain.hostname ++ " has no CNAME record. Add one pointing at " ++
                target ++ ".") }
      | .ok (first :: rest) =>
          if target ∈ first :: rest then
            { status := .passing, details := [("chain", first :: rest)] }
          else
            { status := .failing
              errorCode := some "cname_target_mismatch"
              message := some (domain.hostname ++ " points at " ++
                (first :: rest).getLast (by simp) ++ ", expected " ++ target ++
                ". Update the CNAME record, and make sure no CDN or proxy rewrites it.")
              details := [("chain", first :: rest)] }

def passingOutcome : Outcome where
  status := .passing

/-! ## Scheduling -/

/-- The retry schedule; the last value repeats. -/
def backoff : List Time :=
  [minutes 1, minutes 2, minutes 5, minutes 15, minutes 30, hours 1]

def revalidateInterval : Time := hours 6

def ownershipLossGrace : Time := hours 24

def fastRecheckWindow : Time := minutes 30

def fastRecheckInterval : Time := seconds 30

/-- `schedule_next`: when the check runs again, and the details it keeps. -/
def scheduleNext (check : Option DomainCheck) (outcome : Outcome) (now : Time) :
    Time × CheckDetails :=
  let previous := (check.bind (·.details)).getD {}
  if outcome.passing then
    (now + revalidateInterval, { fields := outcome.details, attempts := some 0 })
  else
    let attempts := previous.attempts.getD 0 + 1
    (now + backoff.getD (min attempts backoff.length - 1) 0,
      { fields := outcome.details
        attempts := some attempts
        failingSince := some (previous.failingSince.getD now) })

/-- `fast_recheck_due`. -/
def fastRecheckDue (domain : Domain) (now : Time) : Bool :=
  domain.connectStartedAt.any fun started =>
    decide (0 ≤ now - started ∧ now - started < fastRecheckWindow)

/-- The observation `record_check` gets for an outcome. -/
def Outcome.observation (outcome : Outcome) (check : Option DomainCheck) (fast : Bool)
    (now : Time) : Observation :=
  let (nextAt, details) := scheduleNext check outcome now
  { status := outcome.status
    errorCode := outcome.errorCode
    message := outcome.message
    details := some details
    observedAt := now
    nextCheckAt := some (if fast && !outcome.passing then min nextAt (now + fastRecheckInterval)
      else nextAt) }

/-- Record the outcome of one check and its next attempt. -/
def recordOutcome (domain : Domain) (checkType : CheckType) (outcome : Outcome) (fast : Bool)
    (now : Time) : Sql Domain :=
  recordCheck domain checkType (outcome.observation (domain.check checkType) fast now)

/-! ## Status rules -/

/-- Whether ownership has been failing on the domain's check for the whole
grace period. -/
def ownershipLost (domain : Domain) (now : Time) : Bool :=
  ((domain.check .ownership).bind fun check => check.details.bind (·.failingSince)).any
    fun since => decide (ownershipLossGrace ≤ now - since)

/-- A pending claim is verified by what the DNS said. -/
def verifyPending (domain : Domain) (now : Time) : Sql Domain :=
  if (domain.activeClaim.map (·.status)) = some .pending then
    markClaimVerified domain .dnsTxt now
  else .pure domain

/-- Both DNS checks pass. -/
def dnsPassed (domain : Domain) (now : Time) : Sql Domain := do
  let domain ← verifyPending domain now
  if domain.status = .pendingDns ∨ domain.status = .suspended then
    transitionStatus domain .provisioning (some "dns_verified") now
  else if domain.status = .attentionRequired ∧ checksPassing domain = true then
    transitionStatus domain .ready (some "recovered") now
  else
    pure domain

/-- At least one DNS check does not pass. -/
def dnsFailed (domain : Domain) (ownership : Outcome) (now : Time) : Sql Domain :=
  let failed := if !ownership.passing then "ownership" else "routing"
  if domain.status = .provisioning then
    transitionStatus domain .pendingDns (some (failed ++ "_check_failed")) now
  else if domain.status = .attentionRequired ∧ ownership.passing = false ∧
      (domain.activeClaim.map (·.status)) = some .verified ∧ ownershipLost domain now = true then
    transitionStatus domain .suspended (some "ownership_lost") now
  else
    .pure domain

/-- `apply_dns_outcomes`. -/
def applyDnsOutcomes (domain : Domain) (ownership routing : Outcome) (now : Time) :
    Sql Domain := do
  let fast := fastRecheckDue domain now
  let domain ← recordOutcome domain .ownership ownership fast now
  let domain ← recordOutcome domain .routing routing fast now
  if ownership.passing && routing.passing then
    dnsPassed domain now
  else
    dnsFailed domain ownership now

end CustomDomain
