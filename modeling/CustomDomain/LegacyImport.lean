import CustomDomain.DomainService

/-!
# Import from the volume-based deployment

`import_legacy_domains` of `app/legacy.py`: each hostname of a saved Caddy
configuration is registered under one application.  A limit reached or a
hostname already taken skips the entry; every other error ends the import.
-/

namespace CustomDomain

open Transaction PythonText

structure LegacyDomain where
  hostname : String
  upstream : Option String

structure ImportReport where
  imported : List Domain := []
  existing : List Domain := []
  skipped : List (String × String) := []

/-- The choices of one import run. -/
structure ImportOptions where
  references : List (String × String) := []
  grandfather : Bool := false
  hostnameAsReference : Bool := false

/-- The workspace reference of an entry; an empty one counts as missing. -/
def ImportOptions.reference (options : ImportOptions) (canonical raw : String) : Option String :=
  let mapped (name : String) : Option String :=
    (options.references.lookup name).filter fun reference => !reference.isEmpty
  match mapped canonical with
  | some reference => some reference
  | none =>
      match mapped raw with
      | some reference => some reference
      | none => if options.hostnameAsReference then some canonical else none

/-- How the registration of one entry ended, for the import. -/
inductive ClaimAttempt where
  | registered (domain : Domain)
  | limitReached
  | alreadyClaimed

/-- Whether the database can hold the rows of a registration. -/
def Backend.storesRows (backend : Backend) (domain : Domain) : Bool :=
  backend.stores domain.reference &&
    domain.claims.all fun claim => backend.storesName claim.txtRecordName

/-- `claim_domain` with the two errors the import handles.  A `DataError` of one of its
`INSERT`s ends the import, so it does not matter how far the registration came. -/
def attemptClaim (environment : Environment) (application : Application)
    (hostname reference : String) (fresh : Fresh) (now : Time) : Sql ClaimAttempt :=
  (do
    let domain ← claimDomain environment application hostname reference fresh now
    Program.require (environment.backend.storesRows domain = true) .dataError
    pure (ClaimAttempt.registered domain)).tryCatch fun error =>
      match error with
      | .domainLimitReached _ _ _ => .pure .limitReached
      | .hostnameAlreadyClaimed _ =>
          -- A reference with a NUL is refused before the hostname is compared.
          if environment.backend.stores (strip reference) = true then .pure .alreadyClaimed
          else .raise .dataError
      | other => .raise other

/-- What follows a registration: the event, and with `grandfather` a claim
verified by import and the move to `provisioning`. -/
def adoptDomain (domain : Domain) (upstream : Option String) (grandfather : Bool) (now : Time) :
    Sql Domain := do
  recordEvent domain (.domainImported upstream grandfather) now
  if grandfather then
    let domain ← markClaimVerified domain .legacyImport now
    let domain ← recordCheck domain .ownership
      { status := .passing
        details := some { fields := [("source", ["legacy_import"])] }
        observedAt := now }
    transitionStatus domain .provisioning (some "legacy_import") now
  else
    pure domain

/-- One entry of the import. -/
def importEntry (environment : Environment) (application : Application) (options : ImportOptions)
    (report : ImportReport) (entry : LegacyDomain) (fresh : Fresh) (now : Time) :
    Sql ImportReport :=
  match canonicalize environment.tables entry.hostname false with
  | .error refused =>
      .pure { report with skipped := report.skipped ++ [(entry.hostname, refused.code)] }
  | .ok hostname =>
      match options.reference hostname entry.hostname with
      | none =>
          .pure { report with skipped := report.skipped ++ [(hostname, "missing_reference")] }
      | some reference => do
          let attempt ← attemptClaim environment application hostname reference fresh now
          match attempt with
          | .limitReached =>
              pure { report with
                skipped := report.skipped ++ [(hostname, "domain_limit_reached")] }
          | .alreadyClaimed => do
              let live ← findLiveByHostname environment hostname
              match live with
              | none =>
                  pure { report with
                    skipped := report.skipped ++ [(hostname, "hostname_already_claimed")] }
              | some live =>
                  if live.domain.applicationId = application.id then
                    pure { report with existing := report.existing ++ [live.domain] }
                  else
                    pure { report with
                      skipped := report.skipped ++ [(hostname, "hostname_already_claimed")] }
          | .registered domain => do
              let domain ← adoptDomain domain entry.upstream options.grandfather now
              pure { report with imported := report.imported ++ [domain] }

/-- `import_legacy_domains`; `draw` gives each entry its identifiers and token. -/
def importLegacyDomains (environment : Environment) (application : Application)
    (options : ImportOptions) (entries : List LegacyDomain) (draw : Nat → Fresh) (now : Time) :
    Sql ImportReport :=
  Program.foldEach entries.zipIdx {} fun report entry =>
    importEntry environment application options report entry.1 (draw entry.2) now

end CustomDomain
