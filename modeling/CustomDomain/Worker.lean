import CustomDomain.DnsChecks
import CustomDomain.EdgeChecks

/-!
# The checks worker

The transactions of `process_domain` in `app/dns/worker.py`.  A run leases the
due checks, loads the domain, queries the DNS, applies the outcomes under the
application lock, probes the edge, and applies those outcomes under the lock as
well; each of these is a transaction of its own.  `DnsPhase` and `EdgePhase`
say how the two applying transactions can end.
-/

namespace CustomDomain

open Transaction

def dnsCheckTypes : List CheckType := [.ownership, .routing]

def edgeCheckTypes : List CheckType := [.certificate, .origin]

def lease : Time := minutes 2

/-- `_due`. -/
def DomainCheck.due (check : DomainCheck) (now : Time) : Bool :=
  check.nextCheckAt.all fun at_ => decide (at_ ≤ now)

/-- The checks of a domain that a statement selects. -/
def selectedChecks (view : Database) (domainId : Uuid) (selects : DomainCheck → Bool) :
    List DomainCheck :=
  (((view.domain? domainId).map (·.checks)).getD []).filter selects

/-- `due_check_types`. -/
def dueCheckTypes (domainId : Uuid) (now : Time) : Sql (List CheckType) :=
  .read fun view => (selectedChecks view domainId (·.due now)).map (·.checkType)

/-- `UPDATE domain_checks SET next_check_at = ...`; returns whether a row
matched. -/
def setNextCheck (domainId : Uuid) (selects : DomainCheck → Bool) (at_ : Time) : Sql Bool :=
  .write
    (fun view => (selectedChecks view domainId selects).map fun check =>
      .check domainId check.checkType)
    (fun view db => db.updateDomain domainId fun domain =>
      { domain with
        checks := domain.checks.map fun check =>
          if (selectedChecks view domainId selects).any fun selected =>
              selected.checkType == check.checkType then
            { check with nextCheckAt := some at_ }
          else check })
    fun view => .pure (!(selectedChecks view domainId selects).isEmpty)

/-- `lease_domain`. -/
def leaseDomain (domainId : Uuid) (now : Time) (types : List CheckType) (force : Bool) :
    Sql Bool :=
  setNextCheck domainId
    (fun check => decide (check.checkType ∈ types) && (force || check.due now)) (now + lease)

/-- `_load`: a live domain that is not being deleted. -/
def loadDomain (domainId : Uuid) : Sql (Option Loaded) := do
  let found ← selectDomain fun view => (view.domain? domainId).filter (·.isLive)
  pure (found.filter fun loaded => loaded.domain.status != .deleting)

/-- `claim_version`: the live claim observations are made against. -/
def claimVersion (domain : Domain) : Option (Uuid × String × String) :=
  domain.activeClaim.map fun claim => (claim.id, claim.token, claim.cnameTarget)

/-- A zone the detector found is stored with the outcomes. -/
def storeZone (domain : Domain) (zone : Option String) (now : Time) : Sql Domain :=
  if zone.isSome ∧ domain.zone ≠ zone then do
    let after := { domain with zone := zone, updatedAt := now }
    flushDomain domain after
    pure after
  else .pure domain

/-- A status change makes the edge checks follow right away. -/
def leaseEdgeChecks (domain : Domain) (statusBefore : DomainStatus) (edgeDue : Bool)
    (now : Time) : Sql Bool :=
  if domain.status ≠ statusBefore ∧ edgeDue = false then
    leaseDomain domain.id now edgeCheckTypes true
  else .pure edgeDue

/-- What a run knows when it comes to apply its DNS outcomes. -/
structure DnsResults where
  queried : Option (Uuid × String × String)
  ownership : Outcome
  routing : Outcome
  zone : Option String := none
  statusBefore : DomainStatus
  edgeDue : Bool

inductive DnsPhase where
  | gone
  | discarded
  | applied (domain : Domain) (edgeDue : Bool)

/-- The transaction of the DNS phase.  A domain that is gone ends it with
nothing written, so there is nothing to roll back. -/
def applyDnsPhase (domainId applicationId : Uuid) (results : DnsResults) (now : Time) :
    Sql DnsPhase := do
  lockApplication applicationId
  let found ← loadDomain domainId
  match found with
  | none => pure .gone
  | some loaded =>
      if claimVersion loaded.domain ≠ results.queried then
        let _ ← setNextCheck domainId (fun check => decide (check.checkType ∈ dnsCheckTypes)) now
        pure .discarded
      else
        let domain ← applyDnsOutcomes loaded.domain results.ownership results.routing now
        let domain ← storeZone domain results.zone now
        let edgeDue ← leaseEdgeChecks domain results.statusBefore results.edgeDue now
        pure (.applied domain edgeDue)

/-- What a run knows when it comes to apply its edge outcomes. -/
structure EdgeResults where
  probed : Option (Uuid × String × String)
  certificate : Outcome
  origin : Outcome

inductive EdgePhase where
  | gone
  | discarded
  | applied (domain : Domain)

/-- The transaction of the edge phase. -/
def applyEdgePhase (domainId applicationId : Uuid) (results : EdgeResults) (now : Time) :
    Sql EdgePhase := do
  lockApplication applicationId
  let found ← loadDomain domainId
  match found with
  | none => pure .gone
  | some loaded =>
      if claimVersion loaded.domain ≠ results.probed ∨ eligibleForEdgeChecks loaded = false then
        pure .discarded
      else
        let domain ← applyEdgeOutcomes loaded.domain results.certificate results.origin now
        pure (.applied domain)

end CustomDomain
