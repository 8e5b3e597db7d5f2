import CustomDomain.Records

/-!
# The statements behind the object mapper

A flush writes the columns of a row that changed since the object was loaded,
and no others.  `before` is the object as loaded, `after` as it is flushed, and
the stored row may differ from both when another transaction committed in
between.  Unique indexes are checked on the rows visible to the statement.
-/

namespace CustomDomain

open Transaction

/-- One column of an `UPDATE`: written only if the object's value changed. -/
def column {α : Type} [DecidableEq α] (before after stored : α) : α :=
  if after = before then stored else after

@[simp] theorem column_loaded {α : Type} [DecidableEq α] (before after : α) :
    column before after before = after := by
  unfold column
  split
  next same => exact same.symm
  next => rfl

namespace Domain

/-- The stored row after flushing the domain's own columns. -/
def patch (before after stored : Domain) : Domain :=
  { stored with
    status := column before.status after.status stored.status
    deletedAt := column before.deletedAt after.deletedAt stored.deletedAt
    purgeAfter := column before.purgeAfter after.purgeAfter stored.purgeAfter
    zone := column before.zone after.zone stored.zone
    connectStartedAt := column before.connectStartedAt after.connectStartedAt
      stored.connectStartedAt
    updatedAt := column before.updatedAt after.updatedAt stored.updatedAt }

def updateClaim (domain : Domain) (id : Uuid) (change : OwnershipClaim → OwnershipClaim) : Domain :=
  { domain with
    claims := domain.claims.map fun claim => if claim.id = id then change claim else claim }

def updateCheck (domain : Domain) (checkType : CheckType) (change : DomainCheck → DomainCheck) :
    Domain :=
  { domain with
    checks := domain.checks.map fun check =>
      if check.checkType = checkType then change check else check }

def addClaim (domain : Domain) (claim : OwnershipClaim) : Domain :=
  { domain with claims := domain.claims ++ [claim] }

def addCheck (domain : Domain) (check : DomainCheck) : Domain :=
  { domain with checks := domain.checks ++ [check] }

/-- The claims the partial unique index covers. -/
def liveClaims (domain : Domain) : List OwnershipClaim :=
  domain.claims.filter fun claim => claim.status ≠ .revoked

end Domain

def OwnershipClaim.patch (before after stored : OwnershipClaim) : OwnershipClaim :=
  { stored with
    status := column before.status after.status stored.status
    verificationMethod := column before.verificationMethod after.verificationMethod
      stored.verificationMethod
    verifiedAt := column before.verifiedAt after.verifiedAt stored.verifiedAt
    revokedAt := column before.revokedAt after.revokedAt stored.revokedAt }

def DomainCheck.patch (before after stored : DomainCheck) : DomainCheck :=
  { stored with
    status := column before.status after.status stored.status
    errorCode := column before.errorCode after.errorCode stored.errorCode
    message := column before.message after.message stored.message
    details := column before.details after.details stored.details
    observedAt := column before.observedAt after.observedAt stored.observedAt
    nextCheckAt := column before.nextCheckAt after.nextCheckAt stored.nextCheckAt }

/-- `UPDATE domains ...`: also leaves the live-hostname index when the row is
deleted. -/
def flushDomain (before after : Domain) : Sql Unit :=
  if after = before then .pure ()
  else
    .write
      (fun _ => if after.deletedAt = before.deletedAt then [.domain before.id]
        else [.domain before.id, .liveHostname before.hostname])
      (fun _ db => db.updateDomain before.id (Domain.patch before after))
      fun view => if (view.domain? before.id).isSome then .pure () else .raise .staleData

/-- Another claim of the domain is not revoked. -/
def otherLiveClaim (view : Database) (domainId claimId : Uuid) : Bool :=
  (view.domain? domainId).any fun domain =>
    domain.liveClaims.any fun claim => claim.id != claimId

/-- `UPDATE ownership_claims ...`, under the index that allows one live claim
per domain. -/
def flushClaim (domainId : Uuid) (before after : OwnershipClaim) : Sql Unit :=
  if after = before then .pure ()
  else
    .write
      (fun _ => [.claim before.id, .liveClaim domainId])
      (fun _ db => db.updateDomain domainId fun domain =>
        domain.updateClaim before.id (OwnershipClaim.patch before after))
      fun view =>
        if after.status ≠ .revoked ∧ otherLiveClaim view domainId before.id = true then
          .raise (.integrityError "ux_ownership_claims_one_live")
        else if (view.domain? domainId).isSome then .pure () else .raise .staleData

/-- `INSERT INTO ownership_claims ...`: identifiers and tokens are unique.  The sizes of the
columns are not checked here. -/
def insertClaim (domainId : Uuid) (claim : OwnershipClaim) : Sql Unit :=
  .write
    (fun _ => [.claim claim.id, .liveClaim domainId, .token claim.token])
    (fun _ db => db.updateDomain domainId fun domain => domain.addClaim claim)
    fun view =>
      if (view.domains.any fun domain => domain.claims.any fun other =>
          other.id == claim.id || other.token == claim.token) then
        .raise (.integrityError "ownership_claims")
      else if otherLiveClaim view domainId claim.id then
        .raise (.integrityError "ux_ownership_claims_one_live")
      else if (view.domain? domainId).isSome then .pure ()
      else .raise (.integrityError "fk_ownership_claims_domain_id_domains")

def flushCheck (domainId : Uuid) (before after : DomainCheck) : Sql Unit :=
  if after = before then .pure ()
  else
    .write
      (fun _ => [.check domainId before.checkType])
      (fun _ db => db.updateDomain domainId fun domain =>
        domain.updateCheck before.checkType (DomainCheck.patch before after))
      fun view => if (view.domain? domainId).isSome then .pure () else .raise .staleData

def insertCheck (domainId : Uuid) (check : DomainCheck) : Sql Unit :=
  .write
    (fun _ => [.check domainId check.checkType])
    (fun _ db => db.updateDomain domainId fun domain => domain.addCheck check)
    fun view =>
      match view.domain? domainId with
      | none => .raise (.integrityError "fk_domain_checks_domain_id_domains")
      | some domain =>
          if (domain.check check.checkType).isSome then
            .raise (.integrityError "uq_domain_checks_domain_id")
          else .pure ()

/-- How an insert into `domains` can violate a constraint. -/
inductive DomainConflict where
  | hostname
  | other
  deriving DecidableEq

def domainConflict (view : Database) (domain : Domain) : Option DomainConflict :=
  if (view.domain? domain.id).isSome ∨ (view.application? domain.applicationId).isNone then
    some .other
  else if (view.liveByHostname domain.hostname).isSome then some .hostname
  else none

/-- `INSERT INTO domains ...` in a savepoint: on a conflict nothing is written.
Otherwise the insert waits for another transaction that has the hostname's
index entry in its hands. -/
def insertDomain (domain : Domain) : Sql (Option DomainConflict) :=
  .write
    (fun view => if (domainConflict view domain).isSome then []
      else [.domain domain.id, .liveHostname domain.hostname])
    (fun view db =>
      if (domainConflict view domain).isSome then db
      else { db with domains := db.domains ++ [domain] })
    fun view => .pure (domainConflict view domain)

/-! ## Events -/

/-- `webhook_event_type`. -/
def webhookEventType (event : DomainEvent) : Option WebhookEventType :=
  match event.payload with
  | .statusChanged _ .ready (some "recovered") => some .recovered
  | .statusChanged _ .ready _ => some .ready
  | .statusChanged _ .attentionRequired _ => some .attentionRequired
  | .domainDeleted _ _ => some .deleted
  | _ => none

/-- `enqueue_for_event`: one pending delivery per active subscription that
wants the event. -/
def enqueueForEvent (domain : Domain) (event : DomainEvent) : Sql Unit :=
  match webhookEventType event with
  | none => .pure ()
  | some eventType =>
      .select fun view =>
        let wanted := view.subscriptions.filter fun subscription =>
          decide (subscription.applicationId = domain.applicationId) &&
            subscription.revokedAt.isNone && decide (eventType ∈ subscription.events)
        if wanted.isEmpty then .pure ()
        else
          .write (fun _ => [])
            (fun _ db =>
              { db with
                deliveries := db.deliveries ++ wanted.map fun subscription =>
                  { subscriptionId := subscription.id
                    applicationId := domain.applicationId
                    event := event
                    eventType := eventType
                    domain := domain
                    nextAttemptAt := some event.createdAt
                    createdAt := event.createdAt } })
            fun _ => .pure ()

/-- The latest event of a domain. -/
def latestEvent (db : Database) (domainId : Uuid) : Option Time :=
  ((db.events.filter fun event => event.domainId = domainId).map (·.createdAt)).max?

/-- `record_event`: the stamp is nudged past the domain's latest event. -/
def recordEvent (domain : Domain) (payload : EventPayload) (now : Time) : Sql Unit :=
  .select fun view =>
    let stamp := match latestEvent view domain.id with
      | some last => if now ≤ last then last + 1 else now
      | none => now
    let event : DomainEvent := ⟨domain.id, domain.applicationId, payload, stamp⟩
    .write (fun _ => []) (fun _ db => { db with events := db.events ++ [event] })
      fun _ => enqueueForEvent domain event

end CustomDomain
