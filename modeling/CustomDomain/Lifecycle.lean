import CustomDomain.EdgeChecks

/-!
# The lifecycle of one domain

What the operations of the service make of one domain, as functions of the
domain alone, and what every such function keeps: one live claim while the
domain is live and none afterwards, one row per check, and readiness only with
a verified claim and every check passing.  `LifecycleStatements` shows that the
statements of the service do exactly this to the stored row.
-/

namespace CustomDomain

namespace Domain

/-! ## The operations -/

def moved (domain : Domain) (status : DomainStatus) (now : Time) : Domain :=
  { domain with status := status, updatedAt := now }

/-- `record_check`, before its status rule. -/
def withCheck (domain : Domain) (checkType : CheckType) (observation : Observation) : Domain :=
  match domain.check checkType with
  | none => domain.addCheck (observation.applied { checkType := checkType })
  | some before =>
      domain.updateCheck checkType (DomainCheck.patch before (observation.applied before))

/-- `record_check`. -/
def observed (domain : Domain) (checkType : CheckType) (observation : Observation) : Domain :=
  let recorded := domain.withCheck checkType observation
  if observation.status = .failing ∧ recorded.status = .ready then
    recorded.moved .attentionRequired observation.observedAt
  else recorded

/-- Change the live claim, if there is one. -/
def changeClaim (domain : Domain) (change : OwnershipClaim → OwnershipClaim) : Domain :=
  match domain.activeClaim with
  | none => domain
  | some before => domain.updateClaim before.id (OwnershipClaim.patch before (change before))

/-- `mark_claim_verified`. -/
def verified (domain : Domain) (method : VerificationMethod) (now : Time) : Domain :=
  domain.changeClaim fun before =>
    { before with
      status := .verified, verificationMethod := some method, verifiedAt := some now }

/-- `_revoke_live_claim`. -/
def revoked (domain : Domain) (now : Time) : Domain :=
  domain.changeClaim fun before => { before with status := .revoked, revokedAt := some now }

/-- The claim `_issue_claim` adds. -/
def newClaim (domain : Domain) (claimId : Uuid) (token cnameTarget : String) (now : Time) :
    OwnershipClaim where
  id := claimId
  txtRecordName := challengeLabel ++ "." ++ domain.hostname
  token := token
  cnameTarget := cnameTarget
  createdAt := now

/-- One outcome of `apply_dns_outcomes` or `apply_edge_outcomes`. -/
def outcomeRecorded (domain : Domain) (checkType : CheckType) (outcome : Outcome) (fast : Bool)
    (now : Time) : Domain :=
  domain.observed checkType (outcome.observation (domain.check checkType) fast now)

/-- A pending claim is verified by what the DNS said. -/
def proven (domain : Domain) (now : Time) : Domain :=
  if (domain.activeClaim.map (·.status)) = some .pending then domain.verified .dnsTxt now
  else domain

def passedDns (domain : Domain) (now : Time) : Domain :=
  let proven := domain.proven now
  if proven.status = .pendingDns ∨ proven.status = .suspended then
    proven.moved .provisioning now
  else if proven.status = .attentionRequired ∧ checksPassing proven = true then
    proven.moved .ready now
  else proven

def failedDns (domain : Domain) (ownership : Outcome) (now : Time) : Domain :=
  if domain.status = .provisioning then domain.moved .pendingDns now
  else if domain.status = .attentionRequired ∧ ownership.passing = false ∧
      (domain.activeClaim.map (·.status)) = some .verified ∧ ownershipLost domain now = true then
    domain.moved .suspended now
  else domain

/-- `apply_dns_outcomes`. -/
def dnsApplied (domain : Domain) (ownership routing : Outcome) (now : Time) : Domain :=
  let fast := fastRecheckDue domain now
  let recorded := (domain.outcomeRecorded .ownership ownership fast now).outcomeRecorded
    .routing routing fast now
  if ownership.passing && routing.passing then recorded.passedDns now
  else recorded.failedDns ownership now

/-- `apply_edge_outcomes`. -/
def edgeApplied (domain : Domain) (certificate origin : Outcome) (now : Time) : Domain :=
  let recorded := (domain.outcomeRecorded .certificate certificate false now).outcomeRecorded
    .origin origin false now
  if (recorded.status = .provisioning ∨ recorded.status = .attentionRequired) ∧
      (recorded.activeClaim.map (·.status)) = some .verified ∧ checksPassing recorded = true then
    recorded.moved .ready now
  else recorded

/-- What a re-issue makes of each check. -/
def resetObservation (now : Time) : Observation where
  status := .pending
  details := some { fields := [("reason", ["claim_reissued"])] }
  observedAt := now

/-- A re-issue, before the new claim. -/
def reset (domain : Domain) (now : Time) : Domain :=
  let cleared := CheckType.all.foldl
    (fun domain checkType => domain.observed checkType (resetObservation now))
    (domain.revoked now)
  if cleared.status ∈ resetOnReissue then cleared.moved .pendingDns now else cleared

/-- `reissue_claim`. -/
def reissued (domain : Domain) (claimId : Uuid) (token cnameTarget : String) (now : Time) :
    Domain :=
  let cleared := domain.reset now
  cleared.addClaim (cleared.newClaim claimId token cnameTarget now)

/-- `delete_domain`, before the claim is revoked. -/
def buried (domain : Domain) (now : Time) : Domain :=
  { domain with
    status := .deleting
    deletedAt := some now
    purgeAfter := some (now + tombstoneRetention)
    updatedAt := now }

/-- `delete_domain` of a live domain. -/
def tombstoned (domain : Domain) (now : Time) : Domain := (domain.buried now).revoked now

/-- `request_recheck`. -/
def rechecked (domain : Domain) (now : Time) : Domain :=
  domain.checks.foldl
    (fun domain check => domain.updateCheck check.checkType
      (DomainCheck.patch check { check with nextCheckAt := some now }))
    domain

/-- A new registration. -/
def registered (domain : Domain) (claimId : Uuid) (token cnameTarget : String) (now : Time) :
    Domain :=
  { domain with
    checks := CheckType.all.map fun checkType => { checkType := checkType }
    claims := [domain.newClaim claimId token cnameTarget now] }

/-- A grandfathered import of a new registration. -/
def adopted (domain : Domain) (now : Time) : Domain :=
  ((domain.verified .legacyImport now).observed .ownership
    { status := .passing
      details := some { fields := [("source", ["legacy_import"])] }
      observedAt := now }).moved .provisioning now

/-! ## What the operations leave alone -/

/-- Everything an observation or a status change leaves alone. -/
structure Kept (first second : Domain) : Prop where
  id : second.id = first.id
  applicationId : second.applicationId = first.applicationId
  hostname : second.hostname = first.hostname
  reference : second.reference = first.reference
  createdAt : second.createdAt = first.createdAt
  zone : second.zone = first.zone
  deletedAt : second.deletedAt = first.deletedAt
  purgeAfter : second.purgeAfter = first.purgeAfter
  claims : second.claims = first.claims
  connectStartedAt : second.connectStartedAt = first.connectStartedAt

namespace Kept

theorem refl (domain : Domain) : domain.Kept domain :=
  ⟨rfl, rfl, rfl, rfl, rfl, rfl, rfl, rfl, rfl, rfl⟩

theorem trans {first second third : Domain} (left : first.Kept second)
    (right : second.Kept third) : first.Kept third where
  id := right.id.trans left.id
  applicationId := right.applicationId.trans left.applicationId
  hostname := right.hostname.trans left.hostname
  reference := right.reference.trans left.reference
  createdAt := right.createdAt.trans left.createdAt
  zone := right.zone.trans left.zone
  deletedAt := right.deletedAt.trans left.deletedAt
  purgeAfter := right.purgeAfter.trans left.purgeAfter
  claims := right.claims.trans left.claims
  connectStartedAt := right.connectStartedAt.trans left.connectStartedAt

variable {first second : Domain}

theorem liveClaims (kept : first.Kept second) : second.liveClaims = first.liveClaims := by
  rw [Domain.liveClaims, kept.claims, Domain.liveClaims]

theorem activeClaim (kept : first.Kept second) : second.activeClaim = first.activeClaim := by
  rw [Domain.activeClaim, kept.claims, Domain.activeClaim]

theorem isLive (kept : first.Kept second) : second.isLive = first.isLive := by
  rw [Domain.isLive, Domain.isDeleted, kept.deletedAt, Domain.isLive, Domain.isDeleted]

end Kept

theorem moved_kept (domain : Domain) (status : DomainStatus) (now : Time) :
    domain.Kept (domain.moved status now) :=
  ⟨rfl, rfl, rfl, rfl, rfl, rfl, rfl, rfl, rfl, rfl⟩

theorem withCheck_kept (domain : Domain) (checkType : CheckType) (observation : Observation) :
    domain.Kept (domain.withCheck checkType observation) := by
  unfold withCheck
  split <;> exact ⟨rfl, rfl, rfl, rfl, rfl, rfl, rfl, rfl, rfl, rfl⟩

theorem observed_kept (domain : Domain) (checkType : CheckType) (observation : Observation) :
    domain.Kept (domain.observed checkType observation) := by
  have recorded := domain.withCheck_kept checkType observation
  rw [observed]
  split
  next => exact recorded.trans (moved_kept _ _ _)
  next => exact recorded

theorem outcomeRecorded_kept (domain : Domain) (checkType : CheckType) (outcome : Outcome)
    (fast : Bool) (now : Time) : domain.Kept (domain.outcomeRecorded checkType outcome fast now) :=
  domain.observed_kept _ _

/-! ## Checks -/

/-- The domain has one row for each check. -/
def Complete (domain : Domain) : Prop := domain.checks.map (·.checkType) = CheckType.all

section Complete

variable {domain : Domain} (complete : domain.Complete)

include complete

theorem Complete.check_unique {first second : DomainCheck} (left : first ∈ domain.checks)
    (right : second ∈ domain.checks) (same : first.checkType = second.checkType) :
    first = second := by
  have distinct : (domain.checks.map (·.checkType)).Nodup := by
    rw [complete]
    decide
  exact List.inj_on_of_nodup_map distinct left right same

theorem Complete.exists_check (checkType : CheckType) :
    ∃ check ∈ domain.checks, check.checkType = checkType := by
  have member : checkType ∈ domain.checks.map (·.checkType) := by
    rw [complete]
    exact checkType.mem_all
  simpa using member

theorem Complete.check_eq {check : DomainCheck} (member : check ∈ domain.checks) :
    domain.check check.checkType = some check := by
  unfold Domain.check
  cases found : domain.checks.find? fun other => other.checkType = check.checkType with
  | none => exact absurd (List.find?_eq_none.mp found check member) (by simp)
  | some other =>
      have same : other.checkType = check.checkType := by simpa using List.find?_some found
      rw [complete.check_unique (List.mem_of_find?_eq_some found) member same]

theorem Complete.checksPassing_iff :
    checksPassing domain = true ↔ ∀ check ∈ domain.checks, check.status = .passing := by
  have last : ∀ check ∈ domain.checks,
      domain.checks.reverse.find? (fun other => other.checkType = check.checkType) =
        some check := by
    intro check member
    cases found : domain.checks.reverse.find? fun other => other.checkType = check.checkType with
    | none => exact absurd (List.find?_eq_none.mp found check (by simpa using member)) (by simp)
    | some other =>
        have same : other.checkType = check.checkType := by simpa using List.find?_some found
        have present : other ∈ domain.checks := by
          simpa using List.mem_of_find?_eq_some found
        rw [complete.check_unique present member same]
  constructor
  · intro passing check member
    have this := List.all_eq_true.mp passing check.checkType check.checkType.mem_all
    rw [last check member] at this
    simpa using this
  · intro passing
    refine List.all_eq_true.mpr fun checkType _ => ?_
    obtain ⟨check, member, rfl⟩ := complete.exists_check checkType
    rw [last check member]
    simp [passing check member]

/-- An observation replaces the check's row by what it says. -/
theorem Complete.withCheck_eq (checkType : CheckType) (observation : Observation) :
    domain.withCheck checkType observation =
      domain.updateCheck checkType observation.applied := by
  obtain ⟨before, member, rfl⟩ := complete.exists_check checkType
  unfold withCheck
  rw [complete.check_eq member]
  simp only [updateCheck, Domain.mk.injEq, true_and]
  refine List.map_congr_left fun check present => ?_
  split
  next same =>
    rw [complete.check_unique present member same]
    simp [DomainCheck.patch, Observation.applied]
  next => rfl

theorem Complete.updateCheck {checkType : CheckType} {change : DomainCheck → DomainCheck}
    (keeps : ∀ check, (change check).checkType = check.checkType) :
    (domain.updateCheck checkType change).Complete := by
  unfold Complete at *
  rw [← complete, Domain.updateCheck, List.map_map]
  refine List.map_congr_left fun check _ => ?_
  simp only [Function.comp_apply]
  split
  next => exact keeps check
  next => rfl

theorem Complete.withCheck (checkType : CheckType) (observation : Observation) :
    (domain.withCheck checkType observation).Complete := by
  rw [complete.withCheck_eq]
  exact complete.updateCheck fun _ => rfl

theorem Complete.observed (checkType : CheckType) (observation : Observation) :
    (domain.observed checkType observation).Complete := by
  have recorded := complete.withCheck checkType observation
  rw [Domain.observed]
  split
  next => exact recorded
  next => exact recorded

theorem Complete.outcomeRecorded (checkType : CheckType) (outcome : Outcome) (fast : Bool)
    (now : Time) : (domain.outcomeRecorded checkType outcome fast now).Complete :=
  complete.observed _ _

end Complete

theorem withCheck_status (domain : Domain) (checkType : CheckType) (observation : Observation) :
    (domain.withCheck checkType observation).status = domain.status := by
  unfold withCheck
  split <;> rfl

/-- A failing observation takes a domain out of `ready`; nothing else moves. -/
theorem observed_status (domain : Domain) (checkType : CheckType) (observation : Observation) :
    (domain.observed checkType observation).status =
      if observation.status = .failing ∧ domain.status = .ready then .attentionRequired
      else domain.status := by
  rw [observed, withCheck_status]
  split
  next => rfl
  next => exact withCheck_status _ _ _

/-! ## Claims -/

theorem activeClaim_eq (domain : Domain) : domain.activeClaim = domain.liveClaims.head? := by
  rw [activeClaim, liveClaims, List.head?_filter]

section Claims

variable {domain : Domain} (distinct : (domain.claims.map (·.id)).Nodup)

theorem mem_of_liveClaims {claim : OwnershipClaim} (single : domain.liveClaims = [claim]) :
    claim ∈ domain.claims ∧ claim.status ≠ .revoked := by
  have member : claim ∈ domain.liveClaims := by simp [single]
  simpa [liveClaims] using member

include distinct

/-- Changing the live claim leaves the revoked ones as they are. -/
theorem changeClaim_liveClaims {claim : OwnershipClaim}
    (single : domain.liveClaims = [claim]) (change : OwnershipClaim → OwnershipClaim)
    (faithful : OwnershipClaim.patch claim (change claim) claim = change claim) :
    (domain.changeClaim change).liveClaims =
      [change claim].filter fun claim => claim.status ≠ .revoked := by
  obtain ⟨member, live⟩ := mem_of_liveClaims single
  have active : domain.activeClaim = some claim := by rw [activeClaim_eq, single]; rfl
  rw [changeClaim, active]
  simp only [liveClaims, updateClaim, List.filter_map]
  have others : ∀ other ∈ domain.claims, other.id = claim.id → other = claim :=
    fun other present same => List.inj_on_of_nodup_map distinct present member same
  have split : domain.claims.filter (fun other =>
      decide ((if other.id = claim.id then OwnershipClaim.patch claim (change claim) other
        else other).status ≠ .revoked)) =
      domain.liveClaims.filter fun other =>
        decide ((if other.id = claim.id then OwnershipClaim.patch claim (change claim) other
          else other).status ≠ .revoked) := by
    rw [liveClaims, List.filter_filter]
    refine List.filter_congr fun other present => ?_
    by_cases same : other.id = claim.id
    · rw [others other present same]
      simp [live]
    · simp [same]
  simp only [Function.comp_def]
  rw [split, single]
  by_cases gone : (change claim).status = .revoked <;> simp [faithful, gone]

end Claims

/-- A change of the live claim leaves everything else alone. -/
theorem changeClaim_frame (domain : Domain) (change : OwnershipClaim → OwnershipClaim) :
    domain.changeClaim change =
      { domain with claims := (domain.changeClaim change).claims } := by
  unfold changeClaim
  split <;> rfl

@[simp] theorem changeClaim_isLive (domain : Domain) (change : OwnershipClaim → OwnershipClaim) :
    (domain.changeClaim change).isLive = domain.isLive := by
  rw [changeClaim_frame]
  rfl

@[simp] theorem changeClaim_status (domain : Domain)
    (change : OwnershipClaim → OwnershipClaim) :
    (domain.changeClaim change).status = domain.status := by
  rw [changeClaim_frame]

@[simp] theorem changeClaim_checks (domain : Domain)
    (change : OwnershipClaim → OwnershipClaim) :
    (domain.changeClaim change).checks = domain.checks := by
  rw [changeClaim_frame]

theorem changeClaim_of_none {domain : Domain} (none : domain.liveClaims = [])
    (change : OwnershipClaim → OwnershipClaim) : domain.changeClaim change = domain := by
  rw [changeClaim, activeClaim_eq, none]
  rfl

/-- What tells one claim from another, and never changes: identifier, token,
record name and target. -/
def claimLabel (claim : OwnershipClaim) : Uuid × String × String × String :=
  (claim.id, claim.token, claim.txtRecordName, claim.cnameTarget)

/-- The two are the same registration, with the same claims, whatever their
states. -/
structure Alike (first second : Domain) : Prop where
  id : second.id = first.id
  applicationId : second.applicationId = first.applicationId
  hostname : second.hostname = first.hostname
  reference : second.reference = first.reference
  createdAt : second.createdAt = first.createdAt
  labels : second.claims.map claimLabel = first.claims.map claimLabel

namespace Alike

theorem refl (domain : Domain) : domain.Alike domain := ⟨rfl, rfl, rfl, rfl, rfl, rfl⟩

theorem trans {first second third : Domain} (left : first.Alike second)
    (right : second.Alike third) : first.Alike third where
  id := right.id.trans left.id
  applicationId := right.applicationId.trans left.applicationId
  hostname := right.hostname.trans left.hostname
  reference := right.reference.trans left.reference
  createdAt := right.createdAt.trans left.createdAt
  labels := right.labels.trans left.labels

/-- A claim of the one has the label of a claim of the other. -/
theorem exists_label {first second : Domain} (alike : first.Alike second)
    {claim : OwnershipClaim} (member : claim ∈ first.claims) :
    ∃ other ∈ second.claims, claimLabel other = claimLabel claim := by
  have label : claimLabel claim ∈ second.claims.map claimLabel := by
    rw [alike.labels]
    exact List.mem_map_of_mem member
  exact List.mem_map.mp label

theorem symm {first second : Domain} (alike : first.Alike second) : second.Alike first :=
  ⟨alike.id.symm, alike.applicationId.symm, alike.hostname.symm, alike.reference.symm,
    alike.createdAt.symm, alike.labels.symm⟩

end Alike

theorem Kept.alike {first second : Domain} (kept : first.Kept second) : first.Alike second :=
  ⟨kept.id, kept.applicationId, kept.hostname, kept.reference, kept.createdAt,
    by rw [kept.claims]⟩

theorem changeClaim_alike (domain : Domain) (change : OwnershipClaim → OwnershipClaim) :
    domain.Alike (domain.changeClaim change) := by
  rw [changeClaim]
  split
  next => exact .refl domain
  next before found =>
    refine ⟨rfl, rfl, rfl, rfl, rfl, ?_⟩
    rw [updateClaim, List.map_map]
    refine List.map_congr_left fun claim _ => ?_
    simp only [Function.comp_apply]
    split <;> rfl

theorem changeClaim_ids (domain : Domain) (change : OwnershipClaim → OwnershipClaim) :
    (domain.changeClaim change).claims.map (·.id) = domain.claims.map (·.id) := by
  have labels := congrArg (List.map Prod.fst) (domain.changeClaim_alike change).labels
  simpa only [List.map_map, Function.comp_def, claimLabel] using labels

theorem changeClaim_distinct {domain : Domain} (distinct : (domain.claims.map (·.id)).Nodup)
    (change : OwnershipClaim → OwnershipClaim) :
    ((domain.changeClaim change).claims.map (·.id)).Nodup := by
  rw [changeClaim_ids]
  exact distinct

/-! ## Soundness -/

/-- What is true of every stored domain, whatever its checks say. -/
structure Sound (domain : Domain) : Prop where
  complete : domain.Complete
  distinct : (domain.claims.map (·.id)).Nodup
  live : domain.isLive = true →
    domain.status ≠ .deleting ∧ ∃ claim, domain.liveClaims = [claim]
  deleted : domain.isLive = false → domain.status = .deleting ∧ domain.liveClaims = []

/-- A ready domain is live, its claim is verified and all its checks pass. -/
def ReadyEarned (domain : Domain) : Prop :=
  domain.status = .ready → domain.isLive = true ∧
    (domain.activeClaim.map (·.status)) = some .verified ∧ checksPassing domain = true

theorem ReadyEarned.of_status {domain : Domain} (other : domain.status ≠ .ready) :
    domain.ReadyEarned :=
  fun ready => absurd ready other

theorem Sound.kept {first second : Domain} (sound : first.Sound) (kept : first.Kept second)
    (complete : second.Complete) (open_ : first.isLive = true → second.status ≠ .deleting)
    (closed : first.isLive = false → second.status = .deleting) : second.Sound where
  complete := complete
  distinct := by rw [kept.claims]; exact sound.distinct
  live := by
    rw [kept.isLive, kept.liveClaims]
    exact fun live => ⟨open_ live, (sound.live live).2⟩
  deleted := by
    rw [kept.isLive, kept.liveClaims]
    exact fun deleted => ⟨closed deleted, (sound.deleted deleted).2⟩

theorem Sound.observed {domain : Domain} (sound : domain.Sound) (checkType : CheckType)
    (observation : Observation) : (domain.observed checkType observation).Sound := by
  refine sound.kept (domain.observed_kept _ _) (sound.complete.observed _ _) ?_ ?_
  · intro live
    rw [observed_status]
    split
    next => decide
    next => exact (sound.live live).1
  · intro deleted
    rw [observed_status, (sound.deleted deleted).1]
    simp

theorem Sound.moved {domain : Domain} (sound : domain.Sound) (live : domain.isLive = true)
    {status : DomainStatus} (now : Time) (open_ : status ≠ .deleting) :
    (domain.moved status now).Sound := by
  refine sound.kept (domain.moved_kept _ _) sound.complete (fun _ => open_) ?_
  intro deleted
  rw [live] at deleted
  cases deleted

/-- The live claim of a live domain. -/
theorem Sound.activeClaim {domain : Domain} (sound : domain.Sound)
    (live : domain.isLive = true) :
    ∃ claim, domain.liveClaims = [claim] ∧ domain.activeClaim = some claim := by
  obtain ⟨claim, single⟩ := (sound.live live).2
  exact ⟨claim, single, by rw [activeClaim_eq, single]; rfl⟩

theorem verified_liveClaims {domain : Domain} (sound : domain.Sound) {claim : OwnershipClaim}
    (single : domain.liveClaims = [claim]) (method : VerificationMethod) (now : Time) :
    (domain.verified method now).liveClaims =
      [{ claim with
        status := .verified, verificationMethod := some method, verifiedAt := some now }] := by
  rw [verified, changeClaim_liveClaims sound.distinct single _ (by simp [OwnershipClaim.patch])]
  rfl

theorem Sound.verified {domain : Domain} (sound : domain.Sound) (method : VerificationMethod)
    (now : Time) : (domain.verified method now).Sound where
  complete := by
    rw [Complete, Domain.verified, changeClaim_checks]
    exact sound.complete
  distinct := changeClaim_distinct sound.distinct _
  live := by
    intro live
    rw [Domain.verified, changeClaim_isLive] at live
    obtain ⟨open_, claim, single⟩ := sound.live live
    refine ⟨?_, _, verified_liveClaims sound single method now⟩
    rw [Domain.verified, changeClaim_status]
    exact open_
  deleted := by
    intro deleted
    rw [Domain.verified, changeClaim_isLive] at deleted
    rw [Domain.verified, changeClaim_of_none (sound.deleted deleted).2]
    exact sound.deleted deleted

/-! ## Each operation keeps a domain sound -/

section Operations

variable {domain : Domain} (sound : domain.Sound) (live : domain.isLive = true)

include sound live

theorem Sound.outcomeRecorded (checkType : CheckType) (outcome : Outcome) (fast : Bool)
    (now : Time) :
    (domain.outcomeRecorded checkType outcome fast now).Sound ∧
      (domain.outcomeRecorded checkType outcome fast now).isLive = true :=
  ⟨sound.observed _ _, by rw [(domain.outcomeRecorded_kept _ _ _ _).isLive, live]⟩

theorem Sound.proven (now : Time) :
    (domain.proven now).Sound ∧ (domain.proven now).isLive = true := by
  unfold Domain.proven
  split
  next => exact ⟨sound.verified _ _, by rw [Domain.verified, changeClaim_isLive, live]⟩
  next => exact ⟨sound, live⟩

theorem Sound.passedDns (now : Time) : (domain.passedDns now).Sound := by
  obtain ⟨sound, live⟩ := sound.proven live now
  rw [Domain.passedDns]
  split
  next => exact sound.moved live now (by decide)
  next =>
    split
    next => exact sound.moved live now (by decide)
    next => exact sound

theorem Sound.failedDns (ownership : Outcome) (now : Time) :
    (domain.failedDns ownership now).Sound := by
  unfold Domain.failedDns
  split
  next => exact sound.moved live now (by decide)
  next =>
    split
    next => exact sound.moved live now (by decide)
    next => exact sound

theorem Sound.dnsApplied (ownership routing : Outcome) (now : Time) :
    (domain.dnsApplied ownership routing now).Sound := by
  obtain ⟨sound, live⟩ := sound.outcomeRecorded live .ownership ownership
    (fastRecheckDue domain now) now
  obtain ⟨sound, live⟩ := sound.outcomeRecorded live .routing routing
    (fastRecheckDue domain now) now
  rw [Domain.dnsApplied]
  split
  next => exact sound.passedDns live now
  next => exact sound.failedDns live ownership now

theorem Sound.edgeApplied (certificate origin : Outcome) (now : Time) :
    (domain.edgeApplied certificate origin now).Sound := by
  obtain ⟨sound, live⟩ := sound.outcomeRecorded live .certificate certificate false now
  obtain ⟨sound, live⟩ := sound.outcomeRecorded live .origin origin false now
  rw [Domain.edgeApplied]
  split
  next => exact sound.moved live now (by decide)
  next => exact sound

end Operations

@[simp] theorem addClaim_isLive (domain : Domain) (claim : OwnershipClaim) :
    (domain.addClaim claim).isLive = domain.isLive := rfl

theorem revoked_liveClaims {domain : Domain} (sound : domain.Sound) (now : Time) :
    (domain.revoked now).liveClaims = [] := by
  cases live : domain.isLive with
  | true =>
      obtain ⟨claim, single⟩ := (sound.live live).2
      rw [revoked, changeClaim_liveClaims sound.distinct single _ (by simp [OwnershipClaim.patch])]
      rfl
  | false =>
      have none := (sound.deleted live).2
      rw [revoked, changeClaim_of_none none, none]

/-- Resetting the checks moves nothing else. -/
theorem resetChecks_facts (checkTypes : List CheckType) (now : Time) (domain : Domain)
    (complete : domain.Complete) :
    let cleared := checkTypes.foldl
      (fun domain checkType => domain.observed checkType (resetObservation now)) domain
    domain.Kept cleared ∧ cleared.Complete ∧ cleared.status = domain.status := by
  induction checkTypes generalizing domain with
  | nil => exact ⟨.refl domain, complete, rfl⟩
  | cons checkType checkTypes ih =>
      obtain ⟨kept, complete', status⟩ :=
        ih (domain.observed checkType (resetObservation now)) (complete.observed _ _)
      refine ⟨(domain.observed_kept _ _).trans kept, complete', status.trans ?_⟩
      rw [observed_status]
      simp [resetObservation]

/-- Resetting the checks leaves every one of them pending. -/
theorem resetChecks_pending (checkTypes done : List CheckType) (now : Time) (domain : Domain)
    (complete : domain.Complete)
    (before : ∀ check ∈ domain.checks, check.checkType ∈ done → check.status = .pending) :
    ∀ check ∈ (checkTypes.foldl (fun domain checkType =>
      domain.observed checkType (resetObservation now)) domain).checks,
      check.checkType ∈ done ∨ check.checkType ∈ checkTypes → check.status = .pending := by
  induction checkTypes generalizing domain done with
  | nil => exact fun check member typed => before check member (by simpa using typed)
  | cons checkType checkTypes ih =>
      intro check member typed
      refine ih (checkType :: done) (domain.observed checkType (resetObservation now))
        (complete.observed _ _) ?_ check member ?_
      · intro reset inside among
        rw [observed, if_neg (by simp [resetObservation]), complete.withCheck_eq] at inside
        obtain ⟨old, present, rfl⟩ := List.mem_map.mp inside
        split at among
        next here =>
          rw [if_pos here]
          rfl
        next elsewhere =>
          rw [if_neg elsewhere]
          refine before old present ?_
          rcases List.mem_cons.mp among with here | among
          · exact absurd here elsewhere
          · exact among
      · rw [List.mem_cons]
        rcases typed with among | typed
        · exact .inl (.inr among)
        · rcases List.mem_cons.mp typed with here | later
          · exact .inl (.inl here)
          · exact .inr later

theorem reset_pending {domain : Domain} (sound : domain.Sound) (now : Time) :
    ∀ check ∈ (domain.reset now).checks, check.status = .pending := by
  have complete : (domain.revoked now).Complete := by
    rw [Complete, revoked, changeClaim_checks]
    exact sound.complete
  have pending := resetChecks_pending CheckType.all [] now _ complete (by simp)
  intro check member
  refine pending check ?_ (.inr check.checkType.mem_all)
  rw [reset] at member
  split at member
  next => exact member
  next => exact member

theorem reset_facts {domain : Domain} (sound : domain.Sound) (live : domain.isLive = true)
    (now : Time) :
    (domain.revoked now).Kept (domain.reset now) ∧ (domain.reset now).Complete ∧
      (domain.reset now).status ≠ .deleting ∧ (domain.reset now).status ≠ .ready := by
  have complete : (domain.revoked now).Complete := by
    rw [Complete, revoked, changeClaim_checks]
    exact sound.complete
  obtain ⟨kept, complete, status⟩ := resetChecks_facts CheckType.all now _ complete
  rw [revoked, changeClaim_status] at status
  have open_ := (sound.live live).1
  rw [reset]
  split
  next => exact ⟨kept.trans (moved_kept _ _ _), complete, by simp [moved], by simp [moved]⟩
  next other =>
    refine ⟨kept, complete, ?_, ?_⟩
    · rw [revoked, status]
      exact open_
    · rintro ready
      exact other (by rw [ready]; decide)

/-- A fresh claim makes an open domain without one sound again. -/
theorem addClaim_sound {domain : Domain} (complete : domain.Complete)
    (distinct : (domain.claims.map (·.id)).Nodup) (live : domain.isLive = true)
    (open_ : domain.status ≠ .deleting) (none : domain.liveClaims = []) {claim : OwnershipClaim}
    (fresh : claim.id ∉ domain.claims.map (·.id)) (pending : claim.status = .pending) :
    (domain.addClaim claim).Sound where
  complete := complete
  distinct := by
    rw [addClaim, List.map_append, List.map_singleton, ← List.concat_eq_append]
    exact distinct.concat fresh
  live := by
    refine fun _ => ⟨open_, claim, ?_⟩
    rw [liveClaims, addClaim, List.filter_append, ← liveClaims, none]
    simp [pending]
  deleted := by
    intro deleted
    rw [addClaim_isLive, live] at deleted
    cases deleted

theorem Sound.reissued {domain : Domain} (sound : domain.Sound) (live : domain.isLive = true)
    {claimId : Uuid} (fresh : ∀ claim ∈ domain.claims, claim.id ≠ claimId)
    (token cnameTarget : String) (now : Time) :
    (domain.reissued claimId token cnameTarget now).Sound := by
  obtain ⟨kept, complete, open_, -⟩ := reset_facts sound live now
  have none : (domain.reset now).liveClaims = [] := by
    rw [kept.liveClaims, revoked_liveClaims sound]
  have isLive : (domain.reset now).isLive = true := by
    rw [kept.isLive, revoked, changeClaim_isLive, live]
  have ids : (domain.reset now).claims.map (·.id) = domain.claims.map (·.id) := by
    rw [kept.claims, revoked, changeClaim_ids]
  rw [Domain.reissued]
  generalize domain.reset now = cleared at *
  refine addClaim_sound complete (by rw [ids]; exact sound.distinct) isLive open_ none ?_ rfl
  rw [ids]
  intro member
  obtain ⟨claim, present, same⟩ := List.mem_map.mp member
  exact fresh claim present same

theorem reissued_id {domain : Domain} (sound : domain.Sound) (live : domain.isLive = true)
    (claimId : Uuid) (token cnameTarget : String) (now : Time) :
    (domain.reissued claimId token cnameTarget now).id = domain.id := by
  have same : (domain.reset now).id = domain.id :=
    (reset_facts sound live now).1.id.trans (domain.changeClaim_alike _).id
  rw [Domain.reissued]
  generalize domain.reset now = cleared at same
  exact same

theorem tombstoned_isLive (domain : Domain) (now : Time) :
    (domain.tombstoned now).isLive = false := by
  rw [Domain.tombstoned, revoked, changeClaim_isLive]
  rfl

theorem Sound.tombstoned {domain : Domain} (sound : domain.Sound) (live : domain.isLive = true)
    (now : Time) : (domain.tombstoned now).Sound := by
  obtain ⟨claim, single⟩ := (sound.live live).2
  have distinct : ((domain.buried now).claims.map (·.id)).Nodup := sound.distinct
  have single' : (domain.buried now).liveClaims = [claim] := single
  have none : (domain.tombstoned now).liveClaims = [] := by
    rw [Domain.tombstoned, revoked,
      changeClaim_liveClaims distinct single' _ (by simp [OwnershipClaim.patch])]
    rfl
  have isLive := domain.tombstoned_isLive now
  refine ⟨?_, ?_, ?_, ?_⟩
  · rw [Complete, Domain.tombstoned, revoked, changeClaim_checks]
    exact sound.complete
  · exact changeClaim_distinct distinct _
  · rw [isLive]
    exact fun absurd => by cases absurd
  · refine fun _ => ⟨?_, none⟩
    rw [Domain.tombstoned, revoked, changeClaim_status]
    rfl

/-- Only the zone, the Domain Connect time and the times of the next checks may
differ. -/
structure Rescheduled (first second : Domain) : Prop where
  id : second.id = first.id
  applicationId : second.applicationId = first.applicationId
  hostname : second.hostname = first.hostname
  reference : second.reference = first.reference
  createdAt : second.createdAt = first.createdAt
  deletedAt : second.deletedAt = first.deletedAt
  status : second.status = first.status
  claims : second.claims = first.claims
  checks : second.checks.map (fun check => (check.checkType, check.status)) =
    first.checks.map fun check => (check.checkType, check.status)

namespace Rescheduled

variable {first second third : Domain}

theorem refl (domain : Domain) : domain.Rescheduled domain :=
  ⟨rfl, rfl, rfl, rfl, rfl, rfl, rfl, rfl, rfl⟩

theorem trans (left : first.Rescheduled second) (right : second.Rescheduled third) :
    first.Rescheduled third where
  id := right.id.trans left.id
  applicationId := right.applicationId.trans left.applicationId
  hostname := right.hostname.trans left.hostname
  reference := right.reference.trans left.reference
  createdAt := right.createdAt.trans left.createdAt
  deletedAt := right.deletedAt.trans left.deletedAt
  status := right.status.trans left.status
  claims := right.claims.trans left.claims
  checks := right.checks.trans left.checks

theorem isLive (same : first.Rescheduled second) : second.isLive = first.isLive := by
  rw [Domain.isLive, Domain.isDeleted, same.deletedAt, Domain.isLive, Domain.isDeleted]

theorem liveClaims (same : first.Rescheduled second) : second.liveClaims = first.liveClaims := by
  rw [Domain.liveClaims, same.claims, Domain.liveClaims]

theorem activeClaim (same : first.Rescheduled second) :
    second.activeClaim = first.activeClaim := by
  rw [Domain.activeClaim, same.claims, Domain.activeClaim]

theorem sound (same : first.Rescheduled second) (sound : first.Sound) : second.Sound where
  complete := by
    have types := congrArg (List.map Prod.fst) same.checks
    simp only [List.map_map, Function.comp_def] at types
    exact types.trans sound.complete
  distinct := by rw [same.claims]; exact sound.distinct
  live := by rw [same.isLive, same.status, same.liveClaims]; exact sound.live
  deleted := by rw [same.isLive, same.status, same.liveClaims]; exact sound.deleted

end Rescheduled

theorem Rescheduled.alike {first second : Domain} (same : first.Rescheduled second) :
    first.Alike second :=
  ⟨same.id, same.applicationId, same.hostname, same.reference, same.createdAt,
    by rw [same.claims]⟩

/-- Scheduling a check moves the time of the next one only. -/
theorem updateCheck_rescheduled (domain : Domain) (check : DomainCheck) (at_ : Time) :
    domain.Rescheduled (domain.updateCheck check.checkType
      (DomainCheck.patch check { check with nextCheckAt := some at_ })) := by
  refine ⟨rfl, rfl, rfl, rfl, rfl, rfl, rfl, rfl, ?_⟩
  rw [updateCheck, List.map_map]
  refine List.map_congr_left fun stored _ => ?_
  simp only [Function.comp_apply]
  split
  next => simp [DomainCheck.patch, column]
  next => rfl

theorem rechecked_rescheduled (domain : Domain) (now : Time) :
    domain.Rescheduled (domain.rechecked now) := by
  unfold rechecked
  generalize domain.checks = pending
  induction pending generalizing domain with
  | nil => exact .refl domain
  | cons check pending ih => exact (domain.updateCheck_rescheduled check now).trans (ih _)

theorem rechecked_zone (domain : Domain) (now : Time) :
    (domain.rechecked now).zone = domain.zone := by
  unfold rechecked
  generalize domain.checks = pending
  induction pending generalizing domain with
  | nil => rfl
  | cons check pending ih => exact ih _

theorem registered_sound {domain : Domain} (live : domain.isLive = true)
    (open_ : domain.status ≠ .deleting) (claimId : Uuid) (token cnameTarget : String)
    (now : Time) : (domain.registered claimId token cnameTarget now).Sound where
  complete := by simp [Complete, registered, CheckType.all]
  distinct := by simp [registered]
  live := fun _ => ⟨open_, _, rfl⟩
  deleted := by
    intro deleted
    rw [show (domain.registered claimId token cnameTarget now).isLive = domain.isLive from rfl,
      live] at deleted
    cases deleted

theorem Sound.adopted {domain : Domain} (sound : domain.Sound) (live : domain.isLive = true)
    (now : Time) : (domain.adopted now).Sound := by
  refine ((sound.verified .legacyImport now).observed .ownership _).moved ?_ now (by decide)
  rw [(observed_kept _ _ _).isLive, Domain.verified, changeClaim_isLive, live]

/-! ## Each operation keeps the registration -/

theorem proven_alike (domain : Domain) (now : Time) : domain.Alike (domain.proven now) := by
  unfold proven
  split
  next => exact domain.changeClaim_alike _
  next => exact .refl domain

theorem passedDns_alike (domain : Domain) (now : Time) : domain.Alike (domain.passedDns now) := by
  have alike := domain.proven_alike now
  rw [passedDns]
  split
  next => exact alike.trans (moved_kept _ _ _).alike
  next =>
    split
    next => exact alike.trans (moved_kept _ _ _).alike
    next => exact alike

theorem failedDns_alike (domain : Domain) (ownership : Outcome) (now : Time) :
    domain.Alike (domain.failedDns ownership now) := by
  unfold failedDns
  split
  next => exact (moved_kept _ _ _).alike
  next =>
    split
    next => exact (moved_kept _ _ _).alike
    next => exact .refl domain

theorem dnsApplied_alike (domain : Domain) (ownership routing : Outcome) (now : Time) :
    domain.Alike (domain.dnsApplied ownership routing now) := by
  have recorded := ((domain.outcomeRecorded_kept .ownership ownership
    (fastRecheckDue domain now) now).trans (outcomeRecorded_kept _ .routing routing
    (fastRecheckDue domain now) now)).alike
  rw [dnsApplied]
  split
  next => exact recorded.trans (passedDns_alike _ now)
  next => exact recorded.trans (failedDns_alike _ ownership now)

theorem edgeApplied_kept (domain : Domain) (certificate origin : Outcome) (now : Time) :
    domain.Kept (domain.edgeApplied certificate origin now) := by
  have recorded := (domain.outcomeRecorded_kept .certificate certificate false now).trans
    (outcomeRecorded_kept _ .origin origin false now)
  rw [edgeApplied]
  split
  next => exact recorded.trans (moved_kept _ _ _)
  next => exact recorded

theorem tombstoned_alike (domain : Domain) (now : Time) :
    domain.Alike (domain.tombstoned now) := by
  have buried : domain.Alike (domain.buried now) := ⟨rfl, rfl, rfl, rfl, rfl, rfl⟩
  exact buried.trans ((domain.buried now).changeClaim_alike _)

theorem adopted_alike (domain : Domain) (now : Time) : domain.Alike (domain.adopted now) :=
  ((domain.changeClaim_alike _).trans (observed_kept _ _ _).alike).trans
    (moved_kept _ _ _).alike

/-! ## What the two phases leave alone -/

theorem proven_isLive (domain : Domain) (now : Time) :
    (domain.proven now).isLive = domain.isLive := by
  unfold proven
  split
  next => exact changeClaim_isLive _ _
  next => rfl

theorem passedDns_isLive (domain : Domain) (now : Time) :
    (domain.passedDns now).isLive = domain.isLive := by
  rw [passedDns, ← domain.proven_isLive now]
  split
  next => rfl
  next => split <;> rfl

theorem failedDns_isLive (domain : Domain) (ownership : Outcome) (now : Time) :
    (domain.failedDns ownership now).isLive = domain.isLive := by
  unfold failedDns
  split
  next => rfl
  next => split <;> rfl

theorem dnsApplied_isLive (domain : Domain) (ownership routing : Outcome) (now : Time) :
    (domain.dnsApplied ownership routing now).isLive = domain.isLive := by
  have recorded := ((domain.outcomeRecorded_kept .ownership ownership
    (fastRecheckDue domain now) now).trans (outcomeRecorded_kept _ .routing routing
    (fastRecheckDue domain now) now)).isLive
  rw [dnsApplied]
  split
  next => exact (passedDns_isLive _ now).trans recorded
  next => exact (failedDns_isLive _ ownership now).trans recorded

theorem proven_claims {first second : Domain} (same : second.claims = first.claims)
    (now : Time) : (second.proven now).claims = (first.proven now).claims := by
  have active : second.activeClaim = first.activeClaim := by rw [activeClaim, same, activeClaim]
  unfold proven verified changeClaim
  rw [active]
  split
  next =>
    cases first.activeClaim with
    | none => exact same
    | some before => simp only [updateClaim, same]
  next => exact same

/-- The DNS phase changes the claims only when both its checks pass. -/
theorem dnsApplied_claims (domain : Domain) (ownership routing : Outcome) (now : Time) :
    (domain.dnsApplied ownership routing now).claims =
      if ownership.passing && routing.passing then (domain.proven now).claims
      else domain.claims := by
  have recorded := ((domain.outcomeRecorded_kept .ownership ownership
    (fastRecheckDue domain now) now).trans (outcomeRecorded_kept _ .routing routing
    (fastRecheckDue domain now) now)).claims
  rw [dnsApplied]
  split
  next =>
    rw [← proven_claims recorded now, passedDns]
    split
    next => rfl
    next => split <;> rfl
  next =>
    rw [← recorded, failedDns]
    split
    next => rfl
    next => split <;> rfl

/-- The checks of these types are as they were. -/
def SameChecks (types : List CheckType) (first second : Domain) : Prop :=
  ∀ check ∈ second.checks, check.checkType ∈ types → check ∈ first.checks

section SameChecks

variable {types : List CheckType} {first second third : Domain}

theorem SameChecks.of_eq (same : second.checks = first.checks) : SameChecks types first second := by
  intro check member _
  rw [← same]
  exact member

theorem SameChecks.trans (left : SameChecks types first second)
    (right : SameChecks types second third) : SameChecks types first third :=
  fun check member typed => left check (right check member typed) typed

theorem updateCheck_sameChecks (domain : Domain) {checkType : CheckType}
    {change : DomainCheck → DomainCheck} (other : checkType ∉ types)
    (keeps : ∀ check, (change check).checkType = check.checkType) :
    SameChecks types domain (domain.updateCheck checkType change) := by
  intro check member typed
  rw [updateCheck] at member
  obtain ⟨before, present, rfl⟩ := List.mem_map.mp member
  split at typed
  next same => exact absurd (same ▸ keeps before ▸ typed) other
  next different =>
    rw [if_neg different]
    exact present

theorem withCheck_sameChecks (domain : Domain) {checkType : CheckType}
    (observation : Observation) (other : checkType ∉ types) :
    SameChecks types domain (domain.withCheck checkType observation) := by
  unfold withCheck
  split
  next =>
    intro check member typed
    rcases List.mem_append.mp member with old | new
    · exact old
    · rw [List.mem_singleton.mp new] at typed
      exact absurd typed other
  next => exact domain.updateCheck_sameChecks other fun _ => rfl

theorem observed_sameChecks (domain : Domain) {checkType : CheckType} (observation : Observation)
    (other : checkType ∉ types) :
    SameChecks types domain (domain.observed checkType observation) := by
  have recorded := domain.withCheck_sameChecks observation other
  rw [observed]
  split
  next => exact recorded.trans (.of_eq rfl)
  next => exact recorded

theorem outcomeRecorded_sameChecks (domain : Domain) {checkType : CheckType} (outcome : Outcome)
    (fast : Bool) (now : Time) (other : checkType ∉ types) :
    SameChecks types domain (domain.outcomeRecorded checkType outcome fast now) :=
  domain.observed_sameChecks _ other

theorem passedDns_checks (domain : Domain) (now : Time) :
    (domain.passedDns now).checks = domain.checks := by
  have proven : (domain.proven now).checks = domain.checks := by
    unfold Domain.proven
    split
    next => exact changeClaim_checks _ _
    next => rfl
  rw [passedDns, ← proven]
  split
  next => rfl
  next => split <;> rfl

theorem failedDns_checks (domain : Domain) (ownership : Outcome) (now : Time) :
    (domain.failedDns ownership now).checks = domain.checks := by
  unfold failedDns
  split
  next => rfl
  next => split <;> rfl

/-- The DNS phase leaves the other checks alone. -/
theorem dnsApplied_sameChecks (domain : Domain) (ownership routing : Outcome) (now : Time) :
    SameChecks [.certificate, .origin] domain (domain.dnsApplied ownership routing now) := by
  have recorded := (domain.outcomeRecorded_sameChecks ownership (fastRecheckDue domain now) now
    (show CheckType.ownership ∉ [CheckType.certificate, .origin] by decide)).trans
    (outcomeRecorded_sameChecks _ routing (fastRecheckDue domain now) now
      (show CheckType.routing ∉ [CheckType.certificate, .origin] by decide))
  rw [dnsApplied]
  split
  next => exact recorded.trans (.of_eq (passedDns_checks _ now))
  next => exact recorded.trans (.of_eq (failedDns_checks _ ownership now))

/-- The edge phase leaves the other checks alone. -/
theorem edgeApplied_sameChecks (domain : Domain) (certificate origin : Outcome) (now : Time) :
    SameChecks [.ownership, .routing] domain (domain.edgeApplied certificate origin now) := by
  have recorded := (domain.outcomeRecorded_sameChecks certificate false now
    (show CheckType.certificate ∉ [CheckType.ownership, .routing] by decide)).trans
    (outcomeRecorded_sameChecks _ origin false now
      (show CheckType.origin ∉ [CheckType.ownership, .routing] by decide))
  rw [edgeApplied]
  split
  next => exact recorded.trans (.of_eq rfl)
  next => exact recorded

theorem adopted_sameChecks (domain : Domain) (now : Time) :
    SameChecks [.certificate, .origin] domain (domain.adopted now) := by
  have verified : SameChecks [.certificate, .origin] domain (domain.verified .legacyImport now) :=
    .of_eq (domain.changeClaim_checks _)
  exact (verified.trans (observed_sameChecks _ _ (by decide))).trans (.of_eq rfl)

end SameChecks

/-! ## Readiness is earned -/

theorem ReadyEarned.observed {domain : Domain} (earned : domain.ReadyEarned)
    (complete : domain.Complete) {checkType : CheckType} {observation : Observation}
    (decided : observation.status ≠ .pending) :
    (domain.observed checkType observation).ReadyEarned := by
  intro ready
  rw [observed_status] at ready
  split at ready
  next => cases ready
  next stays =>
    obtain ⟨live, claim, passing⟩ := earned ready
    have kept := domain.observed_kept checkType observation
    have passed : observation.status = .passing := by
      cases status : observation.status with
      | pending => exact absurd status decided
      | passing => rfl
      | failing => exact absurd ⟨status, ready⟩ stays
    refine ⟨by rw [kept.isLive, live], by rw [kept.activeClaim, claim], ?_⟩
    rw [(complete.observed _ _).checksPassing_iff]
    rw [complete.checksPassing_iff] at passing
    rw [Domain.observed, complete.withCheck_eq, if_neg (by simp [passed])]
    intro check member
    rw [Domain.updateCheck] at member
    obtain ⟨before, present, rfl⟩ := List.mem_map.mp member
    split
    next => exact passed
    next => exact passing before present

theorem ReadyEarned.verified {domain : Domain} (earned : domain.ReadyEarned)
    (sound : domain.Sound) (method : VerificationMethod) (now : Time) :
    (domain.verified method now).ReadyEarned := by
  intro ready
  rw [Domain.verified, changeClaim_status] at ready
  obtain ⟨live, -, passing⟩ := earned ready
  obtain ⟨claim, single⟩ := (sound.live live).2
  refine ⟨by rw [Domain.verified, changeClaim_isLive, live], ?_, ?_⟩
  · rw [activeClaim_eq, verified_liveClaims sound single]
    rfl
  · rw [checksPassing, Domain.verified, changeClaim_checks]
    exact passing

section Readiness

variable {domain : Domain} (sound : domain.Sound) (live : domain.isLive = true)

include sound live

/-- Once the DNS checks pass, the claim is verified. -/
theorem proven_claim (now : Time) :
    ((domain.proven now).activeClaim.map (·.status)) = some .verified := by
  obtain ⟨claim, single, active⟩ := sound.activeClaim live
  have unrevoked := (mem_of_liveClaims single).2
  unfold proven
  split
  next =>
    rw [activeClaim_eq, verified_liveClaims sound single]
    rfl
  next settled =>
    rw [active, Option.map_some] at settled ⊢
    cases status : claim.status with
    | pending => exact absurd (by rw [status]) settled
    | verified => rfl
    | revoked => exact absurd status unrevoked

omit live in
theorem ReadyEarned.proven (earned : domain.ReadyEarned) (now : Time) :
    (domain.proven now).ReadyEarned := by
  unfold Domain.proven
  split
  next => exact earned.verified sound _ _
  next => exact earned

theorem ReadyEarned.passedDns (earned : domain.ReadyEarned) (now : Time) :
    (domain.passedDns now).ReadyEarned := by
  have claimed := proven_claim sound live now
  have earned := ReadyEarned.proven sound earned now
  have live := (sound.proven live now).2
  rw [Domain.passedDns]
  split
  next => exact .of_status (by simp [moved])
  next =>
    split
    next guard => exact fun _ => ⟨live, claimed, guard.2⟩
    next => exact earned

omit sound live in
theorem ReadyEarned.failedDns (earned : domain.ReadyEarned) (ownership : Outcome) (now : Time) :
    (domain.failedDns ownership now).ReadyEarned := by
  unfold Domain.failedDns
  split
  next => exact .of_status (by simp [moved])
  next =>
    split
    next => exact .of_status (by simp [moved])
    next => exact earned

theorem ReadyEarned.dnsApplied (earned : domain.ReadyEarned) {ownership routing : Outcome}
    (decided : ownership.status ≠ .pending ∧ routing.status ≠ .pending) (now : Time) :
    (domain.dnsApplied ownership routing now).ReadyEarned := by
  have first : (domain.outcomeRecorded .ownership ownership (fastRecheckDue domain now)
      now).ReadyEarned := earned.observed sound.complete decided.1
  obtain ⟨sound, live⟩ := sound.outcomeRecorded live .ownership ownership
    (fastRecheckDue domain now) now
  have second : ((domain.outcomeRecorded .ownership ownership (fastRecheckDue domain now)
      now).outcomeRecorded .routing routing (fastRecheckDue domain now) now).ReadyEarned :=
    first.observed sound.complete decided.2
  obtain ⟨sound, live⟩ := sound.outcomeRecorded live .routing routing
    (fastRecheckDue domain now) now
  rw [Domain.dnsApplied]
  split
  next => exact ReadyEarned.passedDns sound live second now
  next => exact ReadyEarned.failedDns second ownership now

omit sound live in
/-- A recorded outcome makes no domain ready. -/
theorem outcomeRecorded_notReady (checkType : CheckType) (outcome : Outcome) (fast : Bool)
    (now : Time) (other : domain.status ≠ .ready) :
    (domain.outcomeRecorded checkType outcome fast now).status ≠ .ready := by
  rw [outcomeRecorded, observed_status]
  split
  next => exact nofun
  next => exact other

/-- Where the DNS phase makes a domain ready, that is earned. -/
theorem dnsApplied_readyEarned (other : domain.status ≠ .ready) (ownership routing : Outcome)
    (now : Time) : (domain.dnsApplied ownership routing now).ReadyEarned := by
  have recorded := outcomeRecorded_notReady .routing routing (fastRecheckDue domain now) now
    (outcomeRecorded_notReady .ownership ownership (fastRecheckDue domain now) now other)
  obtain ⟨sound, live⟩ := sound.outcomeRecorded live .ownership ownership
    (fastRecheckDue domain now) now
  obtain ⟨sound, live⟩ := sound.outcomeRecorded live .routing routing
    (fastRecheckDue domain now) now
  rw [Domain.dnsApplied]
  split
  next => exact ReadyEarned.passedDns sound live (.of_status recorded) now
  next => exact ReadyEarned.failedDns (.of_status recorded) ownership now

/-- Where the edge phase makes a domain ready, that is earned. -/
theorem edgeApplied_readyEarned (other : domain.status ≠ .ready) (certificate origin : Outcome)
    (now : Time) : (domain.edgeApplied certificate origin now).ReadyEarned := by
  have recorded := outcomeRecorded_notReady .origin origin false now
    (outcomeRecorded_notReady .certificate certificate false now other)
  obtain ⟨sound, live⟩ := sound.outcomeRecorded live .certificate certificate false now
  obtain ⟨sound, live⟩ := sound.outcomeRecorded live .origin origin false now
  rw [Domain.edgeApplied]
  split
  next guard => exact fun _ => ⟨live, guard.2.1, guard.2.2⟩
  next => exact .of_status recorded

theorem ReadyEarned.edgeApplied (earned : domain.ReadyEarned) {certificate origin : Outcome}
    (decided : certificate.status ≠ .pending ∧ origin.status ≠ .pending) (now : Time) :
    (domain.edgeApplied certificate origin now).ReadyEarned := by
  have first : (domain.outcomeRecorded .certificate certificate false now).ReadyEarned :=
    earned.observed sound.complete decided.1
  obtain ⟨sound, live⟩ := sound.outcomeRecorded live .certificate certificate false now
  have second : (((domain.outcomeRecorded .certificate certificate false now).outcomeRecorded
      .origin origin false now)).ReadyEarned := first.observed sound.complete decided.2
  obtain ⟨sound, live⟩ := sound.outcomeRecorded live .origin origin false now
  rw [Domain.edgeApplied]
  split
  next guard => exact fun _ => ⟨live, guard.2.1, guard.2.2⟩
  next => exact second

theorem reissued_readyEarned (claimId : Uuid) (token cnameTarget : String) (now : Time) :
    (domain.reissued claimId token cnameTarget now).ReadyEarned := by
  obtain ⟨-, -, -, notReady⟩ := reset_facts sound live now
  rw [Domain.reissued]
  generalize domain.reset now = cleared at *
  exact .of_status notReady

end Readiness

theorem tombstoned_readyEarned (domain : Domain) (now : Time) :
    (domain.tombstoned now).ReadyEarned := by
  refine .of_status ?_
  rw [tombstoned, revoked, changeClaim_status]
  simp [buried]

theorem ReadyEarned.rescheduled {first second : Domain} (earned : first.ReadyEarned)
    (complete : first.Complete) (same : first.Rescheduled second) : second.ReadyEarned := by
  intro ready
  rw [same.status] at ready
  obtain ⟨live, claim, passing⟩ := earned ready
  refine ⟨by rw [same.isLive, live], by rw [same.activeClaim, claim], ?_⟩
  have types := congrArg (List.map Prod.fst) same.checks
  simp only [List.map_map, Function.comp_def] at types
  have complete' : second.Complete := types.trans complete
  rw [complete.checksPassing_iff] at passing
  rw [complete'.checksPassing_iff]
  intro check member
  have present : (check.checkType, check.status) ∈
      second.checks.map fun check => (check.checkType, check.status) := List.mem_map_of_mem member
  rw [same.checks] at present
  obtain ⟨before, member, same⟩ := List.mem_map.mp present
  rw [← (Prod.mk.inj same).2]
  exact passing before member

end Domain

end CustomDomain
