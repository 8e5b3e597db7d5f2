import CustomDomain.ApplicationService
import CustomDomain.DnsChecks

/-!
# Certificate and origin checks

`app/services/edge_checks.py`: who may hold a certificate, the readiness probe
through the edge, and how a domain becomes ready.
-/

namespace CustomDomain

open Transaction

def notIssuable : List DomainStatus := [.pendingDns, .suspended, .deleting]

/-- `certificate_authorized`, on the domain and the application it is joined
with. -/
def certificateAuthorized (loaded : Loaded) : Bool :=
  loaded.domain.isLive && decide (loaded.domain.status ∉ notIssuable) &&
    (loaded.application.map (·.status) == some .active) &&
    (loaded.domain.activeClaim.map (·.status) == some .verified)

/-- `eligible_for_edge_checks`. -/
def eligibleForEdgeChecks (loaded : Loaded) : Bool := certificateAuthorized loaded

/-- `is_serveable`. -/
def isServeable (loaded : Loaded) : Bool :=
  loaded.domain.isLive && decide (loaded.domain.status = .ready) &&
    (loaded.application.map (·.status) == some .active) &&
    (loaded.domain.activeClaim.map (·.status) == some .verified) &&
    checksPassing loaded.domain

/-! ## Probes -/

/-- Texts of the standard library that only appear in messages and details. -/
structure Formats where
  isoformat : Time → String
  repr : String → String

structure ProbeFailure where
  code : String
  message : String

/-- What the edge answered on the health path. -/
structure EdgeProbe where
  address : String
  notAfter : Time
  issuer : String
  status : Nat
  edgeHeader : Option String
  notBefore : Option Time := none

/-- What the origin answered on the workspace path, through the edge. -/
structure WorkspaceProbe where
  address : String
  status : Nat
  reference : Option String
  applicationId : Option String

def certificateExpiryWarning : Time := days 7

def edgeHealthValue : String := "1"

/-- `timedelta / 3`, rounded to the nearest microsecond. -/
def third (span : Time) : Time := (2 * span + 3) / 6

/-- How long before its end a certificate counts as expiring. -/
def expiryWarning (probe : EdgeProbe) : Time :=
  match probe.notBefore with
  | some notBefore => min certificateExpiryWarning (third (probe.notAfter - notBefore))
  | none => certificateExpiryWarning

/-- `certificate_outcome`. -/
def certificateOutcome (formats : Formats) (probed : Except ProbeFailure EdgeProbe)
    (domain : Domain) (disableHttps : Bool) (now : Time) : Outcome :=
  if disableHttps then { status := .passing, details := [("tls", ["disabled"])] }
  else
    match probed with
    | .error failure =>
        { status := .failing, errorCode := some failure.code, message := some failure.message }
    | .ok probe =>
        if probe.status ≠ 204 ∨ probe.edgeHeader ≠ some edgeHealthValue then
          { status := .failing
            errorCode := some "edge_not_reached"
            message := some (domain.hostname ++ " answered over HTTPS (HTTP " ++
              toString probe.status ++ ") but not from this edge; traffic is reaching another " ++
              "server. Check the CNAME target and any proxy or CDN in front of the hostname.")
            details := [("address", [probe.address])] }
        else
          let expires := formats.isoformat probe.notAfter
          let details :=
            [("address", [probe.address]), ("issuer", [probe.issuer]), ("not_after", [expires])]
          if probe.notAfter - now ≤ 0 then
            { status := .failing
              errorCode := some "certificate_expired"
              message := some ("The certificate for " ++ domain.hostname ++ " expired at " ++
                expires ++ "; renewal has failed. Check Caddy's log for ACME errors, CAA " ++
                "records and rate limits.")
              details := details }
          else if probe.notAfter - now < expiryWarning probe then
            { status := .failing
              errorCode := some "certificate_expiring"
              message := some ("The certificate for " ++ domain.hostname ++ " expires at " ++
                expires ++ " and has not been renewed. Check Caddy's log for ACME errors, CAA " ++
                "records and rate limits.")
              details := details }
          else { status := .passing, details := details }

def VerifiedOrigin.url (origin : VerifiedOrigin) : String :=
  origin.scheme.value ++ "://" ++ origin.host ++ ":" ++ toString origin.port

/-- The probe answers for the domain's own workspace. -/
def WorkspaceProbe.serves (probe : WorkspaceProbe) (domain : Domain) (reference : String) : Bool :=
  decide (reference = domain.reference) &&
    probe.applicationId.all fun id => decide (id = uuidText domain.applicationId)

/-- `origin_outcome`, on the application and its serving origin; `probed` is
`none` without a prober. -/
def originOutcome (formats : Formats) (domain : Domain) (application : Option Application)
    (serving : Option VerifiedOrigin) (probed : Option (Except ProbeFailure WorkspaceProbe)) :
    Outcome :=
  match application, serving with
  | none, _ =>
      { status := .failing
        errorCode := some "origin_not_ready"
        message := some ("Application ? has no verified active origin. Run `custom-domain " ++
          "origin verify --activate` for it.") }
  | some application, none =>
      { status := .failing
        errorCode := some "origin_not_ready"
        message := some ("Application " ++ application.slug ++ " has no verified active " ++
          "origin. Run `custom-domain origin verify --activate` for it.") }
  | some application, some origin =>
      let details := [("origin", [origin.url])]
      match probed with
      | none =>
          { status := .passing, details := details ++ [("workspace_probe", ["disabled"])] }
      | some probed =>
          if !application.workspaceProbeEnabled then
            { status := .passing, details := details ++ [("workspace_probe", ["disabled"])] }
          else
            match probed with
            | .error failure =>
                { status := .failing
                  errorCode := some failure.code
                  message := some failure.message
                  details := details }
            | .ok probe =>
                let details := details ++ [("address", [probe.address])]
                if probe.status ≠ 200 then
                  { status := .failing
                    errorCode := some "workspace_probe_failed"
                    message := some (domain.hostname ++ " answered HTTP " ++
                      toString probe.status ++ " on the workspace path; the origin must return " ++
                      "200 with the workspace it selected from the assertion " ++
                      "(docs/lifecycle.md).")
                    details := details }
                else
                  match probe.reference with
                  | none =>
                      { status := .failing
                        errorCode := some "workspace_probe_invalid"
                        message := some (domain.hostname ++ ": the workspace path returned 200 " ++
                          "without a JSON `reference` field; the origin must echo the " ++
                          "reference from the verified assertion.")
                        details := details }
                  | some reference =>
                      if !probe.serves domain reference then
                        { status := .failing
                          errorCode := some "workspace_mismatch"
                          message := some (domain.hostname ++ " is served for workspace " ++
                            formats.repr reference ++ " but is registered for " ++
                            formats.repr domain.reference ++ "; the origin must select the " ++
                            "workspace from the assertion's `ref`, never from the hostname or " ++
                            "other input.")
                          details := details ++ [("observed_reference", [reference])] }
                      else
                        { status := .passing
                          details := details ++ [("workspace", [reference])] }

/-- `apply_edge_outcomes`. -/
def applyEdgeOutcomes (domain : Domain) (certificate origin : Outcome) (now : Time) :
    Sql Domain := do
  let domain ← recordOutcome domain .certificate certificate false now
  let domain ← recordOutcome domain .origin origin false now
  if (domain.status = .provisioning ∨ domain.status = .attentionRequired) ∧
      (domain.activeClaim.map (·.status)) = some .verified ∧ checksPassing domain = true then
    transitionStatus domain .ready
      (some (if domain.status = .provisioning then "readiness_probe_passed" else "recovered")) now
  else
    pure domain

end CustomDomain
