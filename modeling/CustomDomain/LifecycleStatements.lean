import CustomDomain.Lifecycle
import CustomDomain.LegacyImport

/-!
# The statements carry out the lifecycle

Run alone, the statements of a service operation leave the stored row of a
domain exactly as the operation's function of `Lifecycle` says, and every other
row as it was.  `Holds` is the relation the proofs carry from statement to
statement: the object in the session and the stored row agree.
-/

namespace CustomDomain

open Transaction

/-- Nothing but domains, events, deliveries and lock rows differs. -/
structure Database.SameSetup (first second : Database) : Prop where
  applications : second.applications = first.applications
  origins : second.origins = first.origins
  credentials : second.credentials = first.credentials
  assertionKeys : second.assertionKeys = first.assertionKeys
  subscriptions : second.subscriptions = first.subscriptions
  zones : second.zones = first.zones

namespace Database.SameSetup

theorem refl (db : Database) : db.SameSetup db := ⟨rfl, rfl, rfl, rfl, rfl, rfl⟩

theorem trans {first second third : Database} (left : first.SameSetup second)
    (right : second.SameSetup third) : first.SameSetup third where
  applications := right.applications.trans left.applications
  origins := right.origins.trans left.origins
  credentials := right.credentials.trans left.credentials
  assertionKeys := right.assertionKeys.trans left.assertionKeys
  subscriptions := right.subscriptions.trans left.subscriptions
  zones := right.zones.trans left.zones

end Database.SameSetup

/-- The domains' identifiers are distinct, as the primary key has them. -/
def Database.Keyed (db : Database) : Prop := (db.domains.map (·.id)).Nodup

namespace Database.Keyed

variable {db : Database} (keyed : db.Keyed)

include keyed

theorem domain?_eq {domain : Domain} (member : domain ∈ db.domains) :
    db.domain? domain.id = some domain := by
  unfold Database.domain?
  cases found : db.domains.find? fun other => other.id = domain.id with
  | none => exact absurd (List.find?_eq_none.mp found domain member) (by simp)
  | some other =>
      have same : other.id = domain.id := by simpa using List.find?_some found
      rw [List.inj_on_of_nodup_map keyed (List.mem_of_find?_eq_some found) member same]

end Database.Keyed

/-- The rows are those of `base`, with `domain` in the place of the row with
its identifier. -/
structure Holds (base : Database) (domain : Domain) (db : Database) : Prop where
  setup : base.SameSetup db
  present : ∃ row ∈ base.domains, row.id = domain.id
  domains : db.domains =
    base.domains.map fun row => if row.id = domain.id then domain else row

/-- The operation returns `domain`, and that is what is stored. -/
def Becomes (base : Database) (domain : Domain) (value : Domain) (db : Database) : Prop :=
  value = domain ∧ Holds base domain db

namespace Holds

variable {base db : Database} {domain : Domain}

theorem self (keyed : db.Keyed) (member : domain ∈ db.domains) : Holds db domain db where
  setup := .refl db
  present := ⟨domain, member, rfl⟩
  domains := by
    conv_lhs => rw [← List.map_id db.domains]
    refine List.map_congr_left fun row present => ?_
    split
    next same => exact List.inj_on_of_nodup_map keyed present member same
    next => rfl

theorem row_eq (holds : Holds base domain db) {row : Domain} (member : row ∈ db.domains)
    (same : row.id = domain.id) : row = domain := by
  rw [holds.domains] at member
  obtain ⟨before, -, shape⟩ := List.mem_map.mp member
  split at shape
  next => exact shape.symm
  next other => exact absurd (shape ▸ same) other

theorem mem (holds : Holds base domain db) : domain ∈ db.domains := by
  obtain ⟨row, member, same⟩ := holds.present
  rw [holds.domains]
  exact List.mem_map.mpr ⟨row, member, if_pos same⟩

theorem found (holds : Holds base domain db) : db.domain? domain.id = some domain := by
  unfold Database.domain?
  cases found : db.domains.find? fun other => other.id = domain.id with
  | none => exact absurd (List.find?_eq_none.mp found domain holds.mem) (by simp)
  | some other =>
      rw [holds.row_eq (List.mem_of_find?_eq_some found) (by simpa using List.find?_some found)]

theorem update (holds : Holds base domain db) (change : Domain → Domain)
    (keeps : (change domain).id = domain.id) :
    Holds base (change domain) (db.updateDomain domain.id change) where
  setup := ⟨holds.setup.applications, holds.setup.origins, holds.setup.credentials,
    holds.setup.assertionKeys, holds.setup.subscriptions, holds.setup.zones⟩
  present := by rw [keeps]; exact holds.present
  domains := by
    rw [Database.updateDomain, keeps, holds.domains, List.map_map]
    refine List.map_congr_left fun row _ => ?_
    simp only [Function.comp_apply]
    by_cases same : row.id = domain.id <;> simp [same]

/-- New events and deliveries do not touch what is held. -/
theorem logged (holds : Holds base domain db) (events : List DomainEvent)
    (deliveries : List WebhookDelivery) :
    Holds base domain { db with events := events, deliveries := deliveries } :=
  ⟨⟨holds.setup.applications, holds.setup.origins, holds.setup.credentials,
    holds.setup.assertionKeys, holds.setup.subscriptions, holds.setup.zones⟩,
    holds.present, holds.domains⟩

/-- An identifier and a token no stored claim has are ones no claim of `base`
had, when the domain is still the same registration. -/
theorem unseen_of_alike (holds : Holds base domain db) {before : Domain}
    (member : before ∈ base.domains) (keyed : base.Keyed) (alike : before.Alike domain)
    {claimId : Uuid} {token : String}
    (unseen : ∀ row ∈ db.domains, ∀ other ∈ row.claims,
      other.id ≠ claimId ∧ other.token ≠ token) :
    ∀ row ∈ base.domains, ∀ other ∈ row.claims, other.id ≠ claimId ∧ other.token ≠ token := by
  intro row present other inside
  by_cases here : row.id = domain.id
  · have isBefore : row = before :=
      List.inj_on_of_nodup_map keyed present member (here.trans alike.id)
    rw [isBefore] at inside
    obtain ⟨claim, stored, label⟩ := alike.exists_label inside
    simp only [Domain.claimLabel, Prod.mk.injEq] at label
    rw [← label.1, ← label.2.1]
    exact unseen domain holds.mem claim stored
  · refine unseen row ?_ other inside
    rw [holds.domains]
    exact List.mem_map.mpr ⟨row, present, if_neg here⟩

theorem keyed (holds : Holds base domain db) (keyed : base.Keyed) : db.Keyed := by
  unfold Database.Keyed at *
  rw [holds.domains, List.map_map]
  have same : base.domains.map ((fun row => row.id) ∘
      fun row => if row.id = domain.id then domain else row) = base.domains.map (·.id) := by
    refine List.map_congr_left fun row _ => ?_
    simp only [Function.comp_apply]
    split
    next same => exact same.symm
    next => rfl
  rw [same]
  exact keyed

end Holds

/-! ## Events -/

theorem enqueueForEvent_spec (domain : Domain) (event : DomainEvent) (db : Database) :
    (enqueueForEvent domain event).Returns db fun _ after =>
      ∃ deliveries, after = { db with deliveries := deliveries } := by
  unfold enqueueForEvent
  split
  next => exact Program.Spec.of_pure ⟨db.deliveries, rfl⟩
  next eventType =>
    refine Program.Spec.of_select ?_
    simp only
    split_ifs
    · exact Program.Spec.of_pure ⟨db.deliveries, rfl⟩
    · exact Program.Spec.of_write (Program.Spec.of_pure ⟨_, rfl⟩)

theorem recordEvent_spec (domain : Domain) (payload : EventPayload) (now : Time)
    (db : Database) :
    (recordEvent domain payload now).Returns db fun _ after =>
      ∃ stamp deliveries, after =
        { db with
          events := db.events ++ [⟨domain.id, domain.applicationId, payload, stamp⟩]
          deliveries := deliveries } := by
  unfold recordEvent
  refine Program.Spec.of_select (Program.Spec.of_write ?_)
  refine (enqueueForEvent_spec domain _ _).weaken ?_
  rintro _ after ⟨deliveries, rfl⟩
  exact ⟨_, deliveries, rfl⟩

section Held

variable {base db : Database} {domain : Domain} (holds : Holds base domain db)

include holds

theorem recordEvent_holds (subject : Domain) (payload : EventPayload) (now : Time) :
    (recordEvent subject payload now).Returns db fun _ after => Holds base domain after := by
  refine (recordEvent_spec subject payload now db).weaken ?_
  rintro _ after ⟨stamp, deliveries, rfl⟩
  exact holds.logged _ _

/-! ## Flushes -/

theorem flushDomain_spec {after : Domain} (keeps : after.id = domain.id)
    (faithful : Domain.patch domain after domain = after) :
    (flushDomain domain after).Returns db fun _ db => Holds base after db := by
  unfold flushDomain
  split
  next same =>
    rw [same]
    exact .of_pure holds
  next =>
    have keeps' : (Domain.patch domain after domain).id = domain.id := by rw [faithful, keeps]
    have updated := holds.update _ keeps'
    rw [faithful] at updated
    refine Program.Spec.of_write ?_
    rw [holds.found, Option.isSome_some, if_pos rfl]
    exact Program.Spec.of_pure updated

theorem otherLiveClaim_eq (claimId : Uuid) :
    otherLiveClaim db domain.id claimId =
      domain.liveClaims.any fun claim => claim.id != claimId := by
  rw [otherLiveClaim, holds.found, Option.any_some]

theorem flushClaim_spec {before after : OwnershipClaim}
    (alone : after.status = .revoked ∨ ∀ claim ∈ domain.liveClaims, claim.id = before.id) :
    (flushClaim domain.id before after).Returns db fun _ db =>
      Holds base (domain.updateClaim before.id (OwnershipClaim.patch before after)) db := by
  unfold flushClaim
  split
  next same =>
    subst same
    have unchanged : domain.updateClaim after.id (OwnershipClaim.patch after after) = domain := by
      have same : ∀ claim : OwnershipClaim, OwnershipClaim.patch after after claim = claim := by
        intro claim
        simp [OwnershipClaim.patch, column]
      simp [Domain.updateClaim, same]
    rw [unchanged]
    exact .of_pure holds
  next =>
    have allowed : ¬ (after.status ≠ .revoked ∧
        otherLiveClaim db domain.id before.id = true) := by
      rw [otherLiveClaim_eq holds]
      rintro ⟨live, other⟩
      obtain ⟨claim, member, distinct⟩ := List.any_eq_true.mp other
      rcases alone with revoked | alone
      · exact live revoked
      · exact absurd (alone claim member) (by simpa using distinct)
    refine Program.Spec.of_write ?_
    rw [if_neg allowed, holds.found, Option.isSome_some, if_pos rfl]
    exact Program.Spec.of_pure
      (holds.update (fun domain => domain.updateClaim before.id (OwnershipClaim.patch before after)) rfl)

theorem insertClaim_spec (claim : OwnershipClaim) :
    (insertClaim domain.id claim).Spec db
      (fun _ after => Holds base (domain.addClaim claim) after ∧
        ∀ row ∈ db.domains, ∀ other ∈ row.claims,
          other.id ≠ claim.id ∧ other.token ≠ claim.token)
      fun error _ => ∃ constraint, error = .integrityError constraint := by
  refine Program.Spec.of_write ?_
  rw [holds.found, Option.isSome_some, if_pos rfl]
  split_ifs with taken other
  · exact Program.Spec.of_raise ⟨_, rfl⟩
  · exact Program.Spec.of_raise ⟨_, rfl⟩
  · refine Program.Spec.of_pure ⟨holds.update (fun domain => domain.addClaim claim) rfl,
      fun row member other present => ?_⟩
    simp only [List.any_eq_true, not_exists, not_and] at taken
    simpa using taken row member other present

theorem flushCheck_spec (before after : DomainCheck) :
    (flushCheck domain.id before after).Returns db fun _ db =>
      Holds base (domain.updateCheck before.checkType (DomainCheck.patch before after)) db := by
  unfold flushCheck
  split
  next same =>
    subst same
    have unchanged : domain.updateCheck after.checkType (DomainCheck.patch after after) =
        domain := by
      have same : ∀ check : DomainCheck, DomainCheck.patch after after check = check := by
        intro check
        simp [DomainCheck.patch, column]
      simp [Domain.updateCheck, same]
    rw [unchanged]
    exact .of_pure holds
  next =>
    refine Program.Spec.of_write ?_
    rw [holds.found, Option.isSome_some, if_pos rfl]
    exact Program.Spec.of_pure
      (holds.update (fun domain => domain.updateCheck before.checkType (DomainCheck.patch before after)) rfl)

theorem insertCheck_spec {check : DomainCheck} (missing : domain.check check.checkType = none) :
    (insertCheck domain.id check).Returns db fun _ db =>
      Holds base (domain.addCheck check) db := by
  refine Program.Spec.of_write ?_
  rw [holds.found]
  simp only [missing, Option.isSome_none, Bool.false_eq_true, if_false]
  exact Program.Spec.of_pure
      (holds.update (fun domain => domain.addCheck check) rfl)

/-! ## Status and checks -/

theorem transitionStatus_spec {status : DomainStatus}
    (allowed : transitionRefusal domain status = none) (reason : Option String) (now : Time) :
    (transitionStatus domain status reason now).Returns db
      (Becomes base (if status = domain.status then domain else domain.moved status now)) := by
  unfold transitionStatus
  rw [allowed]
  simp only
  split_ifs with same
  · exact Program.Spec.of_pure ⟨rfl, holds⟩
  · have flushed : (flushDomain domain (domain.moved status now)).Returns db fun _ db =>
        Holds base (domain.moved status now) db :=
      flushDomain_spec holds rfl (by simp [Domain.patch, Domain.moved])
    refine flushed.bind fun _ after holds => ?_
    exact (recordEvent_holds holds _ _ _).bind fun _ after holds => .of_pure ⟨rfl, holds⟩

theorem storeCheck_spec (checkType : CheckType) (observation : Observation) :
    (storeCheck domain checkType observation).Returns db
      (Becomes base (domain.withCheck checkType observation)) := by
  unfold storeCheck Domain.withCheck
  cases existing : domain.check checkType with
  | none =>
      exact (insertCheck_spec holds existing).bind fun _ after holds => .of_pure ⟨rfl, holds⟩
  | some before =>
      have sameType : before.checkType = checkType := by
        simpa using List.find?_some existing
      have flushed := flushCheck_spec holds before (observation.applied before)
      rw [sameType] at flushed
      exact flushed.bind fun _ after holds => .of_pure ⟨rfl, holds⟩

theorem recordCheck_spec (live : domain.isLive = true) (checkType : CheckType)
    (observation : Observation) :
    (recordCheck domain checkType observation).Returns db
      (Becomes base (domain.observed checkType observation)) := by
  unfold recordCheck
  refine (storeCheck_spec holds checkType observation).bind ?_
  rintro _ after ⟨rfl, holds⟩
  refine (recordEvent_holds holds _ _ _).bind fun _ after holds => ?_
  rw [Domain.observed]
  have isLive : (domain.withCheck checkType observation).isDeleted = false := by
    have same := (domain.withCheck_kept checkType observation).isLive
    rw [live] at same
    simpa [Domain.isLive] using same
  simp only
  split_ifs with failing
  · have allowed : transitionRefusal (domain.withCheck checkType observation)
        .attentionRequired = none := by
      simp [transitionRefusal, isLive, failing.2, allowedTransitions]
    have moved := transitionStatus_spec holds allowed
      (some (checkType.value ++ "_check_failed")) observation.observedAt
    rwa [if_neg (by rw [failing.2]; decide)] at moved
  · exact .of_pure ⟨rfl, holds⟩

/-! ## Claims -/

theorem markClaimVerified_spec (live : domain.isLive = true) {claim : OwnershipClaim}
    (single : domain.liveClaims = [claim]) (method : VerificationMethod) (now : Time) :
    (markClaimVerified domain method now).Returns db
      (Becomes base (domain.verified method now)) := by
  have active : domain.activeClaim = some claim := by rw [Domain.activeClaim_eq, single]; rfl
  have notDeleted : domain.isDeleted = false := by simpa [Domain.isLive] using live
  unfold markClaimVerified Domain.verified Domain.changeClaim
  simp only [active, notDeleted, Bool.false_eq_true, if_false]
  refine (flushClaim_spec holds (.inr ?_)).bind fun _ after holds => ?_
  · simp [single]
  · exact (recordEvent_holds holds _ _ _).bind fun _ after holds => .of_pure ⟨rfl, holds⟩

theorem revokeLiveClaim_spec (reason : String) (now : Time) :
    (revokeLiveClaim domain reason now).Returns db (Becomes base (domain.revoked now)) := by
  unfold revokeLiveClaim Domain.revoked Domain.changeClaim
  cases domain.activeClaim with
  | none => exact .of_pure ⟨rfl, holds⟩
  | some before =>
      refine (flushClaim_spec holds (.inl rfl)).bind fun _ after holds => ?_
      exact (recordEvent_holds holds _ _ _).bind fun _ after holds => .of_pure ⟨rfl, holds⟩

theorem issueClaim_spec (claimId : Uuid) (token cnameTarget : String) (now : Time) :
    (issueClaim domain claimId token cnameTarget now).Spec db
      (fun value after =>
        Becomes base (domain.addClaim (domain.newClaim claimId token cnameTarget now))
          value after ∧
        ∀ row ∈ db.domains, ∀ other ∈ row.claims, other.id ≠ claimId ∧ other.token ≠ token)
      fun error _ => ∃ constraint, error = .integrityError constraint := by
  unfold issueClaim
  refine (insertClaim_spec holds (domain.newClaim claimId token cnameTarget now)).bind ?_
  rintro _ after ⟨holds, fresh⟩
  refine (recordEvent_holds holds _ _ _).andThen ?_
  exact fun _ after holds => .of_pure ⟨⟨rfl, holds⟩, fresh⟩

/-- A claim that nobody has yet, for a domain without a live one. -/
theorem issueClaim_returns (bare : domain.liveClaims = []) {claimId : Uuid} {token : String}
    (unseen : ∀ row ∈ db.domains, ∀ other ∈ row.claims, other.id ≠ claimId ∧ other.token ≠ token)
    (cnameTarget : String) (now : Time) :
    (issueClaim domain claimId token cnameTarget now).Returns db
      (Becomes base (domain.addClaim (domain.newClaim claimId token cnameTarget now))) := by
  have unused : (db.domains.any fun row => row.claims.any fun other =>
      other.id == claimId || other.token == token) = false := by
    rw [List.any_eq_false]
    intro row member taken
    obtain ⟨other, present, same⟩ := List.any_eq_true.mp taken
    obtain ⟨id, text⟩ := unseen row member other present
    simp [id, text] at same
  have alone : otherLiveClaim db domain.id claimId = false := by
    rw [otherLiveClaim_eq holds, bare]
    rfl
  have inserted : (insertClaim domain.id (domain.newClaim claimId token cnameTarget now)).Returns db
      fun _ after =>
        Holds base (domain.addClaim (domain.newClaim claimId token cnameTarget now)) after := by
    refine Program.Spec.of_write ?_
    rw [holds.found, Option.isSome_some, if_pos rfl]
    split_ifs with taken other
    · exact absurd (unused.symm.trans taken) (by decide)
    · exact absurd (alone.symm.trans other) (by decide)
    · exact Program.Spec.of_pure (holds.update (fun domain => domain.addClaim _) rfl)
  unfold issueClaim
  refine inserted.bind fun _ after holds => ?_
  exact (recordEvent_holds holds _ _ _).bind fun _ _ holds => .of_pure ⟨rfl, holds⟩

theorem refresh_spec : (refresh domain).Returns db (Becomes base domain) := by
  unfold refresh selectDomain
  refine Program.Spec.of_select ?_
  simp only [holds.found]
  refine Program.Spec.of_select (Program.Spec.of_select ?_)
  simp only [holds.found]
  exact .of_pure ⟨rfl, holds⟩

/-! ## The status rules -/

omit holds in
theorem transitionRefusal_of_move {status : DomainStatus} (live : domain.isLive = true)
    (allowed : status ∈ allowedTransitions domain.status) (other : status ≠ .ready) :
    transitionRefusal domain status = none := by
  have notDeleted : domain.isDeleted = false := by simpa [Domain.isLive] using live
  simp [transitionRefusal, notDeleted, allowed, other]

omit holds in
theorem transitionRefusal_of_ready (live : domain.isLive = true)
    (allowed : .ready ∈ allowedTransitions domain.status)
    (claimed : (domain.activeClaim.map (·.status)) = some .verified)
    (passing : checksPassing domain = true) : transitionRefusal domain .ready = none := by
  have notDeleted : domain.isDeleted = false := by simpa [Domain.isLive] using live
  simp only [transitionRefusal, notDeleted, Bool.false_eq_true, if_false, allowed,
    not_true_eq_false, claimed, ne_eq, passing, Bool.not_true, if_true]
  split <;> rfl

/-- A move to another status that is allowed. -/
theorem move_spec {status : DomainStatus} (allowed : transitionRefusal domain status = none)
    (other : status ≠ domain.status) (reason : Option String) (now : Time) :
    (transitionStatus domain status reason now).Returns db
      (Becomes base (domain.moved status now)) := by
  have moved := transitionStatus_spec holds allowed reason now
  rwa [if_neg other] at moved

theorem verifyPending_spec (sound : domain.Sound) (live : domain.isLive = true) (now : Time) :
    (verifyPending domain now).Returns db (Becomes base (domain.proven now)) := by
  obtain ⟨claim, single⟩ := (sound.live live).2
  unfold verifyPending Domain.proven
  split_ifs
  · exact markClaimVerified_spec holds live single _ _
  · exact .of_pure ⟨rfl, holds⟩

theorem dnsPassed_spec (sound : domain.Sound) (live : domain.isLive = true) (now : Time) :
    (dnsPassed domain now).Returns db (Becomes base (domain.passedDns now)) := by
  unfold dnsPassed
  refine (verifyPending_spec holds sound live now).bind ?_
  rintro _ after ⟨rfl, holds⟩
  have claimed := Domain.proven_claim sound live now
  have live := (sound.proven live now).2
  rw [Domain.passedDns]
  split_ifs with early recovered
  · refine move_spec holds (transitionRefusal_of_move live ?_ (by decide)) ?_ _ _
    · rcases early with status | status <;> rw [status] <;> decide
    · rcases early with status | status <;> rw [status] <;> decide
  · refine move_spec holds (transitionRefusal_of_ready live ?_ claimed recovered.2) ?_ _ _
    · rw [recovered.1]
      decide
    · rw [recovered.1]
      decide
  · exact .of_pure ⟨rfl, holds⟩

theorem dnsFailed_spec (live : domain.isLive = true) (ownership : Outcome) (now : Time) :
    (dnsFailed domain ownership now).Returns db
      (Becomes base (domain.failedDns ownership now)) := by
  unfold dnsFailed Domain.failedDns
  simp only
  by_cases provisioning : domain.status = .provisioning
  · rw [if_pos provisioning, if_pos provisioning]
    refine move_spec holds (transitionRefusal_of_move live ?_ (by decide)) ?_ _ _
    · rw [provisioning]
      decide
    · rw [provisioning]
      decide
  · rw [if_neg provisioning, if_neg provisioning]
    split_ifs with lost
    · refine move_spec holds (transitionRefusal_of_move live ?_ (by decide)) ?_ _ _
      · rw [lost.1]
        decide
      · rw [lost.1]
        decide
    · exact .of_pure ⟨rfl, holds⟩

theorem recordOutcome_spec (live : domain.isLive = true) (checkType : CheckType)
    (outcome : Outcome) (fast : Bool) (now : Time) :
    (recordOutcome domain checkType outcome fast now).Returns db
      (Becomes base (domain.outcomeRecorded checkType outcome fast now)) :=
  recordCheck_spec holds live _ _

/-- `apply_dns_outcomes` never raises on a live domain. -/
theorem applyDnsOutcomes_spec (sound : domain.Sound) (live : domain.isLive = true)
    (ownership routing : Outcome) (now : Time) :
    (applyDnsOutcomes domain ownership routing now).Returns db
      (Becomes base (domain.dnsApplied ownership routing now)) := by
  unfold applyDnsOutcomes
  refine (recordOutcome_spec holds live .ownership ownership _ now).bind ?_
  rintro _ after ⟨rfl, holds⟩
  obtain ⟨sound, live⟩ := sound.outcomeRecorded live .ownership ownership
    (fastRecheckDue domain now) now
  refine (recordOutcome_spec holds live .routing routing _ now).bind ?_
  rintro _ after ⟨rfl, holds⟩
  obtain ⟨sound, live⟩ := sound.outcomeRecorded live .routing routing
    (fastRecheckDue domain now) now
  rw [Domain.dnsApplied]
  split_ifs
  · exact dnsPassed_spec holds sound live now
  · exact dnsFailed_spec holds live ownership now

/-- `apply_edge_outcomes` never raises on a live domain. -/
theorem applyEdgeOutcomes_spec (sound : domain.Sound) (live : domain.isLive = true)
    (certificate origin : Outcome) (now : Time) :
    (applyEdgeOutcomes domain certificate origin now).Returns db
      (Becomes base (domain.edgeApplied certificate origin now)) := by
  unfold applyEdgeOutcomes
  refine (recordOutcome_spec holds live .certificate certificate false now).bind ?_
  rintro _ after ⟨rfl, holds⟩
  obtain ⟨sound, live⟩ := sound.outcomeRecorded live .certificate certificate false now
  refine (recordOutcome_spec holds live .origin origin false now).bind ?_
  rintro _ after ⟨rfl, holds⟩
  obtain ⟨sound, live⟩ := sound.outcomeRecorded live .origin origin false now
  rw [Domain.edgeApplied]
  generalize (domain.outcomeRecorded .certificate certificate false now).outcomeRecorded
    .origin origin false now = recorded at *
  by_cases guard : (recorded.status = .provisioning ∨ recorded.status = .attentionRequired) ∧
      (recorded.activeClaim.map (·.status)) = some .verified ∧ checksPassing recorded = true
  · rw [if_pos guard, if_pos guard]
    refine move_spec holds (transitionRefusal_of_ready live ?_ guard.2.1 guard.2.2) ?_ _ _
    · rcases guard.1 with status | status <;> rw [status] <;> decide
    · rcases guard.1 with status | status <;> rw [status] <;> decide
  · rw [if_neg guard, if_neg guard]
    exact .of_pure ⟨rfl, holds⟩

theorem leaveStatus_spec (live : domain.isLive = true) (now : Time) :
    (leaveStatus domain now).Returns db
      (Becomes base (if domain.status ∈ resetOnReissue then domain.moved .pendingDns now
        else domain)) := by
  unfold leaveStatus
  split_ifs with leaves
  · refine move_spec holds (transitionRefusal_of_move live ?_ (by decide)) ?_ _ _
    · revert leaves
      cases domain.status <;> decide
    · revert leaves
      cases domain.status <;> decide
  · exact .of_pure ⟨rfl, holds⟩

/-- A loop does to the domain what each of its rounds does. -/
theorem foldEach_spec {ι : Type} {body : Domain → ι → Sql Domain} {step : Domain → ι → Domain}
    (keeps : Domain → Prop) (start : keeps domain)
    (kept : ∀ domain item, keeps domain → keeps (step domain item))
    (round : ∀ {db : Database} {domain : Domain} (item : ι), Holds base domain db →
      keeps domain → (body domain item).Returns db (Becomes base (step domain item)))
    (items : List ι) :
    (Program.foldEach items domain body).Returns db (Becomes base (items.foldl step domain)) := by
  induction items generalizing domain db with
  | nil => exact .of_pure ⟨rfl, holds⟩
  | cons item items ih =>
      refine (round item holds start).bind ?_
      rintro _ after ⟨rfl, holds⟩
      exact ih holds (kept domain item start)

theorem resetChecks_spec (live : domain.isLive = true) (now : Time)
    (checkTypes : List CheckType) :
    (Program.foldEach checkTypes domain fun domain checkType =>
      recordCheck domain checkType (Domain.resetObservation now)).Returns db
      (Becomes base (checkTypes.foldl
        (fun domain checkType => domain.observed checkType (Domain.resetObservation now))
        domain)) := by
  refine foldEach_spec holds (fun domain => domain.isLive = true) live ?_ ?_ checkTypes
  · intro domain checkType live
    rw [(domain.observed_kept _ _).isLive, live]
  · exact fun checkType holds live => recordCheck_spec holds live checkType _

theorem scheduleCheck_spec (check : DomainCheck) (at_ : Time) :
    (scheduleCheck domain check at_).Returns db
      (Becomes base (domain.updateCheck check.checkType
        (DomainCheck.patch check { check with nextCheckAt := some at_ }))) :=
  (flushCheck_spec holds check { check with nextCheckAt := some at_ }).bind
    fun _ _ holds => .of_pure ⟨rfl, holds⟩

theorem scheduleChecks_spec (now : Time) (checks : List DomainCheck) :
    (Program.foldEach checks domain fun domain check => scheduleCheck domain check now).Returns db
      (Becomes base (checks.foldl
        (fun domain check => domain.updateCheck check.checkType
          (DomainCheck.patch check { check with nextCheckAt := some now })) domain)) :=
  foldEach_spec holds (fun _ => True) trivial (fun _ _ _ => trivial)
    (fun check holds _ => scheduleCheck_spec holds check now) checks

end Held

/-! ## Reads -/

/-- A budget check only reads. -/
theorem enforceWindow_spec (counts : DomainEvent → Bool) (window : Time) (budget : Nat)
    (message : String) (now : Time) (db : Database) :
    (enforceWindow counts window budget message now).Spec db (fun _ after => after = db)
      fun error after => (∃ wait, error = .rateLimited message wait) ∧ after = db := by
  unfold enforceWindow Program.Spec
  simp only [Program.run_bind, Program.run_read]
  split_ifs
  · exact ⟨⟨_, rfl⟩, rfl⟩
  · rfl

theorem enforceRecheckLimits_spec (domain : Domain) (now : Time) (db : Database) :
    (enforceRecheckLimits domain now).Spec db (fun _ after => after = db)
      fun error after => (∃ message wait, error = .rateLimited message wait) ∧ after = db := by
  have window := (enforceWindow_spec
    (fun event => decide (event.applicationId = domain.applicationId) &&
      isRecheckRequested event.payload)
    recheckWindow recheckMaxPerWindow
    "At most 60 manual rechecks per application per 1 hour(s)" now db).mono
    (fun _ _ unchanged => unchanged) fun error after fail =>
      (⟨⟨_, fail.1⟩, fail.2⟩ :
        (∃ message wait, error = .rateLimited message wait) ∧ after = db)
  unfold enforceRecheckLimits
  refine Program.Spec.readThen ?_
  split
  next last found =>
    exact Program.Spec.requireThen (fun _ => window) fun _ => ⟨⟨_, _, rfl⟩, rfl⟩
  next => exact window

/-! ## Loading -/

/-- Loading a domain reads its row, its claims and its checks; alone, they are
the stored ones. -/
theorem selectDomain_run {query : Database → Option Domain} {db : Database}
    (stored : ∀ domain, query db = some domain → db.domain? domain.id = some domain) :
    (selectDomain query).run db =
      (.ok ((query db).map fun domain => ⟨domain, db.application? domain.applicationId⟩), db) := by
  unfold selectDomain
  simp only [Program.run_select]
  cases found : query db with
  | none => rfl
  | some domain =>
      simp only [Program.run_select, stored domain found]
      rfl

theorem selectDomain_spec {query : Database → Option Domain} {db : Database}
    (stored : ∀ domain, query db = some domain → db.domain? domain.id = some domain) :
    (selectDomain query).Returns db fun found after => after = db ∧
      found = (query db).map fun domain => ⟨domain, db.application? domain.applicationId⟩ :=
  .of_run (selectDomain_run stored) ⟨rfl, rfl⟩

theorem selectDomain_reads (query : Database → Option Domain) (db : Database) :
    (selectDomain query).Returns db fun _ after => after = db := by
  unfold selectDomain
  refine .of_select ?_
  split
  next => exact .of_pure rfl
  next => exact .of_select (.of_select (.of_pure rfl))

theorem findLiveByHostname_reads (environment : Environment) (hostname : String)
    (db : Database) :
    (findLiveByHostname environment hostname).Ensures db fun _ after => after = db := by
  unfold findLiveByHostname
  split
  next => exact .of_raise trivial
  next => exact (selectDomain_reads _ db).mono (fun _ _ same => same) fun _ _ _ => trivial

theorem Database.domain?_id {db : Database} {id : Uuid} {domain : Domain}
    (found : db.domain? id = some domain) : domain.id = id ∧ domain ∈ db.domains :=
  ⟨by simpa using List.find?_some found, List.mem_of_find?_eq_some found⟩

theorem getDomain_spec (application : Application) (domainId : Uuid) (includeDeleted : Bool)
    (db : Database) :
    (getDomain application domainId includeDeleted).Spec db
      (fun domain after => after = db ∧ domain ∈ db.domains ∧ domain.id = domainId ∧
        domain.applicationId = application.id ∧ (includeDeleted = true ∨ domain.isLive = true))
      fun error after => error = .domainNotFound ∧ after = db := by
  unfold getDomain Program.Spec
  rw [Program.run_bind, selectDomain_run]
  · cases found : (db.domain? domainId).filter fun domain =>
        decide (domain.applicationId = application.id) && (includeDeleted || domain.isLive) with
    | none => exact ⟨rfl, rfl⟩
    | some domain =>
        rw [Option.filter_eq_some_iff] at found
        obtain ⟨row, kept⟩ := found
        obtain ⟨id, member⟩ := Database.domain?_id row
        simp only [Bool.and_eq_true, decide_eq_true_eq, Bool.or_eq_true] at kept
        exact ⟨rfl, member, id, kept.1, kept.2⟩
  · intro domain found
    rw [Option.filter_eq_some_iff] at found
    rw [(Database.domain?_id found.1).1]
    exact found.1

theorem getDomain_run {db : Database} {application : Application} {domain : Domain}
    {includeDeleted : Bool} (stored : db.domain? domain.id = some domain)
    (owner : domain.applicationId = application.id)
    (shown : (includeDeleted || domain.isLive) = true) :
    (getDomain application domain.id includeDeleted).run db = (.ok domain, db) := by
  have kept : (db.domain? domain.id).filter (fun found =>
      decide (found.applicationId = application.id) && (includeDeleted || found.isLive)) =
        some domain := by
    simp [stored, owner, shown]
  rw [getDomain, Program.run_bind, selectDomain, Program.run_select, kept]
  simp only [Program.run_select, stored, Option.map_some, Option.getD_some]
  rfl

/-! ## Operations on one domain -/

/-- What `reissue_claim` does before it issues the new claim. -/
theorem cleared_spec {α : Type} {rest : Domain → Sql α} {base db : Database} {domain : Domain}
    {post : α → Database → Prop} {fail : ServiceError → Database → Prop}
    (holds : Holds base domain db) (sound : domain.Sound) (live : domain.isLive = true) (now : Time)
    (next : ∀ cleared, Holds base (domain.reset now) cleared →
      (rest (domain.reset now)).Spec cleared post fail) :
    (do
      let domain ← revokeLiveClaim domain "reissued" now
      let domain ← Program.foldEach CheckType.all domain fun domain checkType =>
        recordCheck domain checkType (Domain.resetObservation now)
      let domain ← leaveStatus domain now
      rest domain).Spec db post fail := by
  refine (revokeLiveClaim_spec holds "reissued" now).andThen ?_
  rintro _ revoked ⟨rfl, holds⟩
  have live' : (domain.revoked now).isLive = true := by
    rw [Domain.revoked, Domain.changeClaim_isLive, live]
  refine (resetChecks_spec holds live' now CheckType.all).andThen ?_
  rintro _ cleared ⟨rfl, holds⟩
  have complete : (domain.revoked now).Complete := by
    rw [Domain.Complete, Domain.revoked, Domain.changeClaim_checks]
    exact sound.complete
  have clearedLive := (Domain.resetChecks_facts CheckType.all now _ complete).1.isLive
  rw [live'] at clearedLive
  refine (leaveStatus_spec holds clearedLive now).andThen ?_
  rintro _ left ⟨rfl, holds⟩
  exact next left holds

section Operations

variable {db : Database} (keyed : db.Keyed) (sound : ∀ domain ∈ db.domains, domain.Sound)

include keyed sound

theorem reissueClaim_spec (application : Application) (domainId claimId : Uuid) (token : String)
    (now : Time) :
    (reissueClaim application domainId claimId token now).Spec db
      (fun value after => ∃ domain ∈ db.domains, domain.id = domainId ∧
        domain.applicationId = application.id ∧ domain.isLive = true ∧
        (∀ row ∈ db.domains, ∀ other ∈ row.claims, other.id ≠ claimId ∧ other.token ≠ token) ∧
        Becomes db (domain.reissued claimId token application.cnameTarget now) value after)
      fun error _ => error = .domainNotFound ∨ ∃ constraint, error = .integrityError constraint := by
  unfold reissueClaim
  refine ((getDomain_spec application domainId false db).mono (fun _ _ post => post)
    fun _ _ fail => .inl fail.1).bind ?_
  rintro domain after ⟨unchanged, member, rfl, owned, excluded | live⟩
  · cases excluded
  rw [unchanged]
  have kept := (Domain.reset_facts (sound domain member) live now).1
  refine cleared_spec (Holds.self keyed member) (sound domain member) live now fun cleared holds => ?_
  refine ((issueClaim_spec holds claimId token application.cnameTarget now).mono
    (fun _ _ post => post) fun _ _ fail => .inr fail).bind ?_
  rintro _ issued ⟨⟨rfl, stored⟩, fresh⟩
  refine (refresh_spec stored).mono ?_ (by simp)
  rintro _ refreshed stored
  refine ⟨domain, member, rfl, owned, live, ?_, stored⟩
  exact holds.unseen_of_alike member keyed
    ((domain.changeClaim_alike _).trans kept.alike) fresh

omit sound in
/-- `delete_domain` finds the domain deleted already, or makes it a
tombstone. -/
theorem deleteDomain_spec (application : Application) (domainId : Uuid) (now : Time) :
    (deleteDomain application domainId now).Spec db
      (fun value after => ∃ domain ∈ db.domains, domain.id = domainId ∧
        domain.applicationId = application.id ∧
        ((domain.isLive = false ∧ value = domain ∧ after = db) ∨
          (domain.isLive = true ∧ Becomes db (domain.tombstoned now) value after)))
      fun error after => error = .domainNotFound ∧ after = db := by
  unfold deleteDomain
  refine (getDomain_spec application domainId true db).bind ?_
  rintro domain after ⟨unchanged, member, rfl, owned, -⟩
  rw [unchanged]
  cases live : domain.isLive with
  | false =>
      have deleted : domain.isDeleted = true := by simpa [Domain.isLive] using live
      rw [if_pos deleted]
      exact Program.Spec.of_pure ⟨domain, member, rfl, owned, .inl ⟨live, rfl, rfl⟩⟩
  | true =>
      have deleted : ¬ domain.isDeleted = true := by simpa [Domain.isLive] using live
      rw [if_neg deleted]
      have flushed : (flushDomain domain (domain.buried now)).Returns db fun _ after =>
          Holds db (domain.buried now) after :=
        flushDomain_spec (Holds.self keyed member) rfl (by simp [Domain.patch, Domain.buried])
      refine flushed.andThen fun _ after holds => ?_
      refine (revokeLiveClaim_spec holds "deleted" now).andThen ?_
      rintro _ after ⟨rfl, holds⟩
      refine (recordEvent_holds holds _ _ _).andThen fun _ after holds => ?_
      exact .of_pure ⟨domain, member, rfl, owned, .inr ⟨live, rfl, holds⟩⟩

omit sound in
theorem requestRecheck_spec (application : Application) (domainId : Uuid)
    (requestedBy : String) (now : Time) :
    (requestRecheck application domainId requestedBy now).Spec db
      (fun value after => ∃ domain ∈ db.domains, domain.id = domainId ∧
        domain.applicationId = application.id ∧ domain.isLive = true ∧
        Becomes db (domain.rechecked now) value after)
      fun _ after => after = db := by
  unfold requestRecheck lockApplication
  refine Program.Spec.of_write ?_
  refine ((getDomain_spec application domainId true db).mono (fun _ _ post => post)
    fun _ _ fail => fail.2).bind ?_
  rintro domain after ⟨unchanged, member, rfl, owned, -⟩
  rw [unchanged]
  refine Program.Spec.requireThen (fun open_ => ?_) fun _ => rfl
  have live : domain.isLive = true := by simp [Domain.isLive, open_.1]
  refine ((enforceRecheckLimits_spec domain now db).mono (fun _ _ post => post)
    fun _ _ fail => fail.2).bind ?_
  rintro _ after unchanged
  rw [unchanged]
  refine (scheduleChecks_spec (Holds.self keyed member) now domain.checks).andThen ?_
  rintro _ after ⟨rfl, holds⟩
  exact (recordEvent_holds holds _ _ _).andThen fun _ after holds =>
    .of_pure ⟨domain, member, rfl, owned, live, rfl, holds⟩

end Operations

end CustomDomain
