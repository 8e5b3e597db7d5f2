import CustomDomain.WorkerRuns

/-!
# Where claims come from

What a transaction can do to the claims and the edge checks of the stored
domains, followed over whole operations of the service: a claim that is live
afterwards was live before or has a token that no stored claim had, a claim is
verified by DNS only where `proven` says so, and an edge check of a live domain
is decided only for the claim it was decided for before, or where `probed` says
so.
-/

namespace CustomDomain.Checks

open Transaction

/-- What `claim_version` compares. -/
def version (claim : OwnershipClaim) : ClaimVersion := (claim.id, claim.token, claim.cnameTarget)

theorem claimVersion_eq (domain : Domain) :
    claimVersion domain = domain.activeClaim.map version := rfl

/-- The claim is among those of the domain with that identifier. -/
theorem mem_tokens {db : Database} {domain : Domain} {claim : OwnershipClaim}
    (member : domain ∈ db.domains) (inside : claim ∈ domain.claims) :
    claim.token ∈ tokens db :=
  List.mem_flatMap.mpr ⟨domain, member, List.mem_map_of_mem inside⟩

theorem exists_of_mem_tokens {db : Database} {token : String} (member : token ∈ tokens db) :
    ∃ domain ∈ db.domains, ∃ claim ∈ domain.claims, claim.token = token := by
  obtain ⟨domain, stored, inside⟩ := List.mem_flatMap.mp member
  obtain ⟨claim, present, same⟩ := List.mem_map.mp inside
  exact ⟨domain, stored, claim, present, same⟩

/-! ## One domain -/

/-- How the claims and the edge checks of one domain can move on. -/
structure RowFlow (unseen : String → Prop) (proven : ClaimVersion → Prop)
    (probed : CheckType → Prop) (domain next : Domain) : Prop where
  id : next.id = domain.id
  kept : ∀ claim ∈ domain.claims, ∃ after ∈ next.claims, version after = version claim
  claims : ∀ after ∈ next.claims,
    (∃ claim ∈ domain.claims, version claim = version after ∧
      (after.verificationMethod = some .dnsTxt →
        claim.verificationMethod = some .dnsTxt ∨ proven (version after))) ∨
      (unseen after.token ∧ after.verificationMethod ≠ some .dnsTxt)
  live : ∀ found, claimVersion next = some found →
    claimVersion domain = some found ∨ unseen found.2.1
  checks : next.isLive = true → ∀ after ∈ next.checks, after.checkType ∈ edgeCheckTypes →
    after.status ≠ .pending →
      (domain.isLive = true ∧ claimVersion domain = claimVersion next ∧
        ∃ check ∈ domain.checks, check.checkType = after.checkType ∧ check.status ≠ .pending) ∨
      (claimVersion domain = claimVersion next ∧ probed after.checkType)
  unique : (∀ first ∈ domain.claims, ∀ second ∈ domain.claims, first.token = second.token →
      first.id = second.id) →
    (∀ claim ∈ domain.claims, ¬ unseen claim.token) →
    ∀ first ∈ next.claims, ∀ second ∈ next.claims, first.token = second.token →
      first.id = second.id

section RowFlow

variable {unseen : String → Prop} {proven : ClaimVersion → Prop} {probed : CheckType → Prop}
  {domain next : Domain}

/-- Claims with the same labels have the same versions. -/
theorem exists_version (alike : domain.Alike next) :
    ∀ claim ∈ domain.claims, ∃ after ∈ next.claims, version after = version claim := by
  intro claim inside
  obtain ⟨after, present, label⟩ := alike.exists_label inside
  simp only [Domain.claimLabel, Prod.mk.injEq] at label
  exact ⟨after, present, by simp [version, label]⟩

theorem unique_of_alike (alike : domain.Alike next)
    (unique : ∀ first ∈ domain.claims, ∀ second ∈ domain.claims, first.token = second.token →
      first.id = second.id) :
    ∀ first ∈ next.claims, ∀ second ∈ next.claims, first.token = second.token →
      first.id = second.id := by
  intro first left second right same
  obtain ⟨firstOld, firstIn, firstSame⟩ := exists_version alike.symm first left
  obtain ⟨secondOld, secondIn, secondSame⟩ := exists_version alike.symm second right
  simp only [version, Prod.mk.injEq] at firstSame secondSame
  rw [← firstSame.1, ← secondSame.1]
  refine unique firstOld firstIn secondOld secondIn ?_
  rw [firstSame.2.1, secondSame.2.1, same]

/-- The claims are the same. -/
theorem RowFlow.of_claims (id : next.id = domain.id) (claims : next.claims = domain.claims)
    (checks : next.isLive = true → ∀ after ∈ next.checks, after.checkType ∈ edgeCheckTypes →
      after.status ≠ .pending →
        (domain.isLive = true ∧ ∃ check ∈ domain.checks,
          check.checkType = after.checkType ∧ check.status ≠ .pending) ∨
        probed after.checkType) :
    RowFlow unseen proven probed domain next := by
  have same : claimVersion next = claimVersion domain := by
    rw [claimVersion_eq, claimVersion_eq, Domain.activeClaim, Domain.activeClaim, claims]
  refine ⟨id, ?_, ?_, ?_, ?_, ?_⟩
  · intro claim inside
    exact ⟨claim, by rw [claims]; exact inside, rfl⟩
  · intro after inside
    rw [claims] at inside
    exact .inl ⟨after, inside, rfl, .inl⟩
  · intro found live
    rw [same] at live
    exact .inl live
  · intro live after inside typed decided
    rcases checks live after inside typed decided with old | new
    · exact .inl ⟨old.1, same.symm, old.2⟩
    · exact .inr ⟨same.symm, new⟩
  · intro unique _
    rw [claims]
    exact unique

theorem RowFlow.rescheduled (same : domain.Rescheduled next) :
    RowFlow unseen proven probed domain next := by
  refine .of_claims same.id same.claims fun live after inside _ decided => .inl ⟨?_, ?_⟩
  · rw [← same.isLive]
    exact live
  · have present : (after.checkType, after.status) ∈
        next.checks.map fun check => (check.checkType, check.status) := List.mem_map_of_mem inside
    rw [same.checks] at present
    obtain ⟨check, member, eq⟩ := List.mem_map.mp present
    obtain ⟨typed, status⟩ := Prod.mk.inj eq
    exact ⟨check, member, typed, by rw [status]; exact decided⟩

theorem RowFlow.edge (domain : Domain) (certificate origin : Outcome) (now : Time) :
    RowFlow unseen proven (· ∈ edgeCheckTypes) domain
      (domain.edgeApplied certificate origin now) := by
  have kept := domain.edgeApplied_kept certificate origin now
  exact .of_claims kept.id kept.claims fun _ after _ typed _ => .inr typed

theorem RowFlow.thenRescheduled {unseen : String → Prop} {proven : ClaimVersion → Prop}
    {probed : CheckType → Prop} {domain middle next : Domain}
    (row : RowFlow unseen proven probed domain middle) (same : middle.Rescheduled next) :
    RowFlow unseen proven probed domain next := by
  have version : claimVersion next = claimVersion middle := by
    rw [claimVersion_eq, claimVersion_eq, same.activeClaim]
  refine ⟨same.id.trans row.id, ?_, ?_, ?_, ?_, ?_⟩
  · rw [same.claims]
    exact row.kept
  · rw [same.claims]
    exact row.claims
  · rw [version]
    exact row.live
  · rw [version, same.isLive]
    intro live after inside typed decided
    have present : (after.checkType, after.status) ∈
        next.checks.map fun check => (check.checkType, check.status) := List.mem_map_of_mem inside
    rw [same.checks] at present
    obtain ⟨check, member, eq⟩ := List.mem_map.mp present
    obtain ⟨sameType, status⟩ := Prod.mk.inj eq
    rw [← sameType] at typed ⊢
    exact row.checks live check member typed (by rw [status]; exact decided)
  · rw [same.claims]
    exact row.unique

theorem RowFlow.weaken {unseen : String → Prop} {proven proven' : ClaimVersion → Prop}
    {probed probed' : CheckType → Prop} {domain next : Domain}
    (row : RowFlow unseen proven probed domain next) (proves : ∀ found, proven found → proven' found)
    (probes : ∀ checkType, probed checkType → probed' checkType) :
    RowFlow unseen proven' probed' domain next := by
  refine ⟨row.id, row.kept, ?_, row.live, ?_, row.unique⟩
  · intro after inside
    rcases row.claims after inside with ⟨claim, present, same, method⟩ | new
    · exact .inl ⟨claim, present, same, fun verified => (method verified).imp_right (proves _)⟩
    · exact .inr new
  · intro live after inside typed decided
    rcases row.checks live after inside typed decided with old | ⟨same, probed⟩
    · exact .inl old
    · exact .inr ⟨same, probes _ probed⟩

/-- Each claim after a change of the live one is a claim from before, and only
the live one differs. -/
theorem changeClaim_cases {change : OwnershipClaim → OwnershipClaim} {after : OwnershipClaim}
    (inside : after ∈ (domain.changeClaim change).claims) :
    ∃ claim ∈ domain.claims, version claim = version after ∧
      (after = claim ∨ ∃ before, domain.activeClaim = some before ∧ claim.id = before.id ∧
        after = OwnershipClaim.patch before (change before) claim) := by
  unfold Domain.changeClaim at inside
  split at inside
  next => exact ⟨after, inside, rfl, .inl rfl⟩
  next before active =>
    obtain ⟨claim, present, rfl⟩ := List.mem_map.mp inside
    split
    next same => exact ⟨claim, present, rfl, .inr ⟨before, active, same, rfl⟩⟩
    next => exact ⟨claim, present, rfl, .inl rfl⟩

/-- Revoking the live claim leaves how claims were verified. -/
theorem revoked_method {now : Time} {after : OwnershipClaim}
    (inside : after ∈ (domain.revoked now).claims) :
    ∃ claim ∈ domain.claims, version claim = version after ∧
      after.verificationMethod = claim.verificationMethod := by
  obtain ⟨claim, present, same, rfl | ⟨before, -, -, rfl⟩⟩ := changeClaim_cases inside
  · exact ⟨after, present, rfl, rfl⟩
  · exact ⟨claim, present, same, by simp [OwnershipClaim.patch, column]⟩

section Sound

variable (sound : domain.Sound)

include sound

/-- Verifying the live claim leaves which claim is live. -/
theorem proven_claimVersion (live : domain.isLive = true) (now : Time) :
    claimVersion (domain.proven now) = claimVersion domain := by
  obtain ⟨claim, single, active⟩ := sound.activeClaim live
  unfold Domain.proven
  split
  next =>
    rw [claimVersion_eq, claimVersion_eq, Domain.activeClaim_eq,
      Domain.verified_liveClaims sound single, active]
    rfl
  next => rfl

theorem dnsApplied_claimVersion (live : domain.isLive = true) (ownership routing : Outcome)
    (now : Time) :
    claimVersion (domain.dnsApplied ownership routing now) = claimVersion domain := by
  have congr : ∀ {first second : Domain}, first.claims = second.claims →
      claimVersion first = claimVersion second := by
    intro first second same
    rw [claimVersion_eq, claimVersion_eq, Domain.activeClaim, Domain.activeClaim, same]
  have claims := domain.dnsApplied_claims ownership routing now
  split at claims
  next => exact (congr claims).trans (proven_claimVersion sound live now)
  next => exact congr claims

theorem RowFlow.dns (live : domain.isLive = true) (ownership routing : Outcome) (now : Time) :
    RowFlow unseen (fun found => ownership.passing = true ∧ claimVersion domain = some found)
      probed domain (domain.dnsApplied ownership routing now) := by
  have alike := domain.dnsApplied_alike ownership routing now
  have same := dnsApplied_claimVersion sound live ownership routing now
  refine ⟨alike.id, exists_version alike, ?_, ?_, ?_, fun unique _ => unique_of_alike alike unique⟩
  · intro after inside
    left
    rw [Domain.dnsApplied_claims] at inside
    split at inside
    next passed =>
      rw [Bool.and_eq_true] at passed
      unfold Domain.proven at inside
      split at inside
      next =>
        obtain ⟨claim, present, equal, rfl | ⟨before, active, here, rfl⟩⟩ :=
          changeClaim_cases inside
        · exact ⟨after, present, rfl, .inl⟩
        · -- The claim that was verified is the live one.
          have isBefore : claim = before :=
            List.inj_on_of_nodup_map sound.distinct present
              (List.mem_of_find?_eq_some active) here
          refine ⟨claim, present, equal, fun _ => .inr ⟨passed.1, ?_⟩⟩
          rw [← equal, claimVersion_eq, active, isBefore]
          rfl
      next => exact ⟨after, inside, rfl, .inl⟩
    next => exact ⟨after, inside, rfl, .inl⟩
  · intro found lives
    rw [same] at lives
    exact .inl lives
  · intro _ after inside typed decided
    exact .inl ⟨live, same.symm, after,
      domain.dnsApplied_sameChecks ownership routing now after inside typed, rfl, decided⟩

theorem RowFlow.reissued (live : domain.isLive = true) {claimId : Uuid} {token : String}
    (new : unseen token) (cnameTarget : String) (now : Time) :
    RowFlow unseen proven probed domain (domain.reissued claimId token cnameTarget now) := by
  obtain ⟨kept, -, -, -⟩ := Domain.reset_facts sound live now
  have alike : domain.Alike (domain.reset now) := (domain.changeClaim_alike _).trans kept.alike
  have none : (domain.reset now).liveClaims = [] := by
    rw [kept.liveClaims, Domain.revoked_liveClaims sound]
  have pending := Domain.reset_pending sound now
  have methods : ∀ after ∈ (domain.reset now).claims, ∃ claim ∈ domain.claims,
      version claim = version after ∧ after.verificationMethod = claim.verificationMethod := by
    intro after inside
    rw [kept.claims] at inside
    exact revoked_method inside
  rw [Domain.reissued]
  generalize domain.reset now = cleared at *
  have members : ∀ {after : OwnershipClaim},
      after ∈ (cleared.addClaim (cleared.newClaim claimId token cnameTarget now)).claims →
      after ∈ cleared.claims ∨ after = cleared.newClaim claimId token cnameTarget now := by
    intro after inside
    simpa [Domain.addClaim] using inside
  refine ⟨alike.id, ?_, ?_, ?_, ?_, ?_⟩
  · intro claim inside
    obtain ⟨after, present, equal⟩ := exists_version alike claim inside
    exact ⟨after, List.mem_append_left _ present, equal⟩
  · intro after inside
    rcases members inside with old | rfl
    · obtain ⟨claim, present, equal, method⟩ := methods after old
      exact .inl ⟨claim, present, equal, fun verified => .inl (method ▸ verified)⟩
    · exact .inr ⟨new, by simp [Domain.newClaim]⟩
  · intro found lives
    right
    have single : (cleared.addClaim (cleared.newClaim claimId token cnameTarget now)).liveClaims =
        [cleared.newClaim claimId token cnameTarget now] := by
      rw [Domain.liveClaims, Domain.addClaim, List.filter_append, ← Domain.liveClaims, none]
      rfl
    rw [claimVersion_eq, Domain.activeClaim_eq, single] at lives
    cases lives
    exact new
  · intro _ after inside _ decided
    exact absurd (pending after inside) decided
  · intro unique seen first left second right equal
    have old := unique_of_alike alike unique
    have known : ∀ claim ∈ cleared.claims, ¬ unseen claim.token := by
      intro claim inside
      obtain ⟨before, present, same⟩ := exists_version alike.symm claim inside
      simp only [version, Prod.mk.injEq] at same
      rw [← same.2.1]
      exact seen before present
    rcases members left with inFirst | rfl
    · rcases members right with inSecond | rfl
      · exact old first inFirst second inSecond equal
      · have equal : first.token = token := equal
        exact absurd new (equal ▸ known first inFirst)
    · rcases members right with inSecond | rfl
      · have equal : token = second.token := equal
        exact absurd new (equal ▸ known second inSecond)
      · rfl

theorem RowFlow.tombstoned (live : domain.isLive = true) (now : Time) :
    RowFlow unseen proven probed domain (domain.tombstoned now) := by
  have alike := domain.tombstoned_alike now
  have gone := domain.tombstoned_isLive now
  have none : (domain.tombstoned now).liveClaims = [] :=
    ((sound.tombstoned live now).deleted gone).2
  refine ⟨alike.id, exists_version alike, ?_, ?_, ?_, fun unique _ => unique_of_alike alike unique⟩
  · intro after inside
    obtain ⟨claim, present, equal, method⟩ := revoked_method inside
    exact .inl ⟨claim, present, equal, fun verified => .inl (method ▸ verified)⟩
  · intro found lives
    rw [claimVersion_eq, Domain.activeClaim_eq, none] at lives
    cases lives
  · intro stillLive
    rw [gone] at stillLive
    cases stillLive

end Sound

end RowFlow

/-! ## The database -/

/-- No two stored claims have the same token. -/
def UniqueTokens (db : Database) : Prop :=
  ∀ first ∈ db.domains, ∀ second ∈ db.domains, ∀ claim ∈ first.claims, ∀ other ∈ second.claims,
    claim.token = other.token → first.id = second.id ∧ claim.id = other.id

/-- How the claims and the edge checks of all domains can move on. -/
structure Flow (proven : Uuid → ClaimVersion → Prop)
    (probed : Uuid → CheckType → Option ClaimVersion → Prop) (db after : Database) : Prop where
  claims : ∀ row ∈ after.domains, ∀ claim ∈ row.claims,
    (∃ old ∈ db.domains, old.id = row.id ∧ ∃ before ∈ old.claims,
      version before = version claim ∧ (claim.verificationMethod = some .dnsTxt →
        before.verificationMethod = some .dnsTxt ∨ proven row.id (version claim))) ∨
      (claim.token ∉ tokens db ∧
        (claim.verificationMethod = some .dnsTxt → proven row.id (version claim)))
  live : ∀ row ∈ after.domains, ∀ found, claimVersion row = some found →
    (∃ old ∈ db.domains, old.id = row.id ∧ claimVersion old = some found) ∨
      found.2.1 ∉ tokens db
  checks : ∀ row ∈ after.domains, row.isLive = true → ∀ check ∈ row.checks,
    check.checkType ∈ edgeCheckTypes → check.status ≠ .pending →
      (∃ old ∈ db.domains, old.id = row.id ∧ old.isLive = true ∧
        claimVersion old = claimVersion row ∧ ∃ before ∈ old.checks,
          before.checkType = check.checkType ∧ before.status ≠ .pending) ∨
      probed row.id check.checkType (claimVersion row)
  unique : UniqueTokens db → UniqueTokens after

namespace Flow

variable {proven : Uuid → ClaimVersion → Prop}
  {probed : Uuid → CheckType → Option ClaimVersion → Prop} {db middle after : Database}

/-- Rows that were stored already flow. -/
theorem of_sublist (rows : after.domains.Sublist db.domains) : Flow proven probed db after where
  claims row member claim inside :=
    .inl ⟨row, rows.subset member, rfl, claim, inside, rfl, .inl⟩
  live row member _ lives := .inl ⟨row, rows.subset member, rfl, lives⟩
  checks row member live check inside _ decided :=
    .inl ⟨row, rows.subset member, rfl, live, rfl, check, inside, rfl, decided⟩
  unique unique first left second right :=
    unique first (rows.subset left) second (rows.subset right)

theorem trans (kept : ∀ token ∈ tokens db, token ∈ tokens middle)
    (left : Flow proven probed db middle) (right : Flow proven probed middle after) :
    Flow proven probed db after where
  claims := by
    intro row member claim inside
    rcases right.claims row member claim inside with
      ⟨old, stored, id, before, present, same, method⟩ | ⟨new, other⟩
    · rcases left.claims old stored before present with
        ⟨older, olderStored, olderId, first, firstIn, firstSame, firstMethod⟩ | ⟨new, other⟩
      · refine .inl ⟨older, olderStored, olderId.trans id, first, firstIn, firstSame.trans same, ?_⟩
        intro verified
        rcases method verified with verified | proof
        · rw [← id, ← same]
          exact firstMethod verified
        · exact .inr proof
      · have token : before.token = claim.token := congrArg (·.2.1) same
        refine .inr ⟨token ▸ new, fun verified => ?_⟩
        rcases method verified with verified | proof
        · rw [← id, ← same]
          exact other verified
        · exact proof
    · exact .inr ⟨fun seen => new (kept _ seen), other⟩
  live := by
    intro row member found lives
    rcases right.live row member found lives with ⟨old, stored, id, lives⟩ | new
    · rcases left.live old stored found lives with ⟨older, olderStored, olderId, lives⟩ | new
      · exact .inl ⟨older, olderStored, olderId.trans id, lives⟩
      · exact .inr new
    · exact .inr fun seen => new (kept _ seen)
  checks := by
    intro row member live check inside typed decided
    rcases right.checks row member live check inside typed decided with
      ⟨old, stored, id, oldLive, same, before, present, sameType, undecided⟩ | proof
    · rw [← sameType] at typed
      rcases left.checks old stored oldLive before present typed undecided with
        ⟨older, olderStored, olderId, olderLive, older', first, firstIn, firstType, firstDecided⟩ |
        proof
      · exact .inl ⟨older, olderStored, olderId.trans id, olderLive, older'.trans same, first,
          firstIn, firstType.trans sameType, firstDecided⟩
      · rw [← id, ← sameType, ← same]
        exact .inr proof
    · exact .inr proof
  unique unique := right.unique (left.unique unique)

/-- One domain moves on. -/
theorem of_holds {domain next : Domain} (keyed : db.Keyed) (member : domain ∈ db.domains)
    (row : RowFlow (· ∉ tokens db) (proven domain.id)
      (fun checkType => probed domain.id checkType (claimVersion domain)) domain next)
    (holds : Holds db next after) :
    (∀ token ∈ tokens db, token ∈ tokens after) ∧ Flow proven probed db after := by
  have rows : ∀ {other : Domain}, other ∈ after.domains →
      (other ∈ db.domains ∧ other.id ≠ domain.id) ∨ other = next := by
    intro other present
    rw [holds.domains] at present
    obtain ⟨before, stored, rfl⟩ := List.mem_map.mp present
    split
    next => exact .inr rfl
    next elsewhere => exact .inl ⟨stored, row.id ▸ elsewhere⟩
  refine ⟨?_, ⟨?_, ?_, ?_, ?_⟩⟩
  · intro token seen
    obtain ⟨old, stored, claim, inside, rfl⟩ := exists_of_mem_tokens seen
    by_cases here : old.id = next.id
    · have isDomain : old = domain :=
        List.inj_on_of_nodup_map keyed stored member (here.trans row.id)
      rw [isDomain] at inside
      obtain ⟨after, present, same⟩ := row.kept claim inside
      rw [← show after.token = claim.token from congrArg (·.2.1) same]
      exact mem_tokens holds.mem present
    · refine mem_tokens ?_ inside
      rw [holds.domains]
      exact List.mem_map.mpr ⟨old, stored, if_neg here⟩
  · intro other present claim inside
    rcases rows present with ⟨stored, -⟩ | rfl
    · exact .inl ⟨other, stored, rfl, claim, inside, rfl, .inl⟩
    · rcases row.claims claim inside with ⟨before, old, same, method⟩ | ⟨new, unverified⟩
      · refine .inl ⟨domain, member, row.id.symm, before, old, same, ?_⟩
        rw [row.id]
        exact method
      · exact .inr ⟨new, fun verified => absurd verified unverified⟩
  · intro other present found lives
    rcases rows present with ⟨stored, -⟩ | rfl
    · exact .inl ⟨other, stored, rfl, lives⟩
    · rcases row.live found lives with old | new
      · exact .inl ⟨domain, member, row.id.symm, old⟩
      · exact .inr new
  · intro other present live check inside typed decided
    rcases rows present with ⟨stored, -⟩ | rfl
    · exact .inl ⟨other, stored, rfl, live, rfl, check, inside, rfl, decided⟩
    · rcases row.checks live check inside typed decided with
        ⟨oldLive, same, before, old, sameType, oldDecided⟩ | ⟨same, proof⟩
      · exact .inl ⟨domain, member, row.id.symm, oldLive, same, before, old, sameType, oldDecided⟩
      · rw [row.id, ← same]
        exact .inr proof
  · intro unique first left second right claim inFirst other inSecond same
    have crosses : ∀ {old : Domain} {claim other : OwnershipClaim}, old ∈ db.domains →
        old.id ≠ domain.id → claim ∈ old.claims → other ∈ next.claims →
        claim.token = other.token → False := by
      intro old claim other stored elsewhere inside inNext same
      rcases row.claims other inNext with ⟨before, present, equal, -⟩ | ⟨new, -⟩
      · have token : before.token = other.token := congrArg (·.2.1) equal
        exact elsewhere (unique old stored domain member claim inside before present
          (same.trans token.symm)).1
      · exact new (same ▸ mem_tokens stored inside)
    rcases rows left with ⟨leftStored, leftElse⟩ | rfl
    · rcases rows right with ⟨rightStored, -⟩ | rfl
      · exact unique first leftStored second rightStored claim inFirst other inSecond same
      · exact (crosses leftStored leftElse inFirst inSecond same).elim
    · rcases rows right with ⟨rightStored, rightElse⟩ | rfl
      · exact (crosses rightStored rightElse inSecond inFirst same.symm).elim
      · refine ⟨rfl, row.unique ?_ ?_ claim inFirst other inSecond same⟩
        · exact fun first left second right same =>
            (unique domain member domain member first left second right same).2
        · exact fun claim inside new => new (mem_tokens member inside)

/-- A domain with one new claim is added. -/
theorem of_adds {domain : Domain} {claim : OwnershipClaim} (single : domain.claims = [claim])
    (new : claim.token ∉ tokens db) (other : claim.verificationMethod ≠ some .dnsTxt)
    (pending : ∀ check ∈ domain.checks, check.checkType ∈ edgeCheckTypes →
      check.status = .pending) (adds : Adds db domain after) :
    (∀ token ∈ tokens db, token ∈ tokens after) ∧ Flow proven probed db after := by
  have rows : ∀ {row : Domain}, row ∈ after.domains → row ∈ db.domains ∨ row = domain := by
    intro row member
    rw [adds.domains] at member
    simpa using member
  have only : ∀ {inside : OwnershipClaim}, inside ∈ domain.claims → inside = claim := by
    intro inside member
    rw [single] at member
    simpa using member
  refine ⟨?_, ⟨?_, ?_, ?_, ?_⟩⟩
  · intro token seen
    obtain ⟨old, stored, claim, inside, rfl⟩ := exists_of_mem_tokens seen
    refine mem_tokens ?_ inside
    rw [adds.domains]
    exact List.mem_append_left _ stored
  · intro row member inside present
    rcases rows member with stored | rfl
    · exact .inl ⟨row, stored, rfl, inside, present, rfl, .inl⟩
    · rw [only present]
      exact .inr ⟨new, fun verified => absurd verified other⟩
  · intro row member found lives
    rcases rows member with stored | rfl
    · exact .inl ⟨row, stored, rfl, lives⟩
    · right
      rw [claimVersion_eq, Option.map_eq_some_iff] at lives
      obtain ⟨active, isActive, rfl⟩ := lives
      rw [only (List.mem_of_find?_eq_some isActive)]
      exact new
  · intro row member live check inside typed decided
    rcases rows member with stored | rfl
    · exact .inl ⟨row, stored, rfl, live, rfl, check, inside, rfl, decided⟩
    · exact absurd (pending check inside typed) decided
  · intro unique first left second right firstClaim inFirst secondClaim inSecond same
    rcases rows left with leftStored | rfl
    · rcases rows right with rightStored | rfl
      · exact unique first leftStored second rightStored firstClaim inFirst secondClaim inSecond
          same
      · rw [only inSecond] at same
        exact absurd (mem_tokens leftStored inFirst) (same ▸ new)
    · rcases rows right with rightStored | rfl
      · rw [only inFirst] at same
        exact absurd (mem_tokens rightStored inSecond) (same ▸ new)
      · rw [only inFirst, only inSecond]
        exact ⟨rfl, rfl⟩

/-- The domains stay as they are. -/
theorem of_same (same : after.domains = db.domains) :
    (∀ token ∈ tokens db, token ∈ tokens after) ∧ Flow proven probed db after := by
  refine ⟨fun token seen => ?_, of_sublist (by rw [same])⟩
  rw [tokens, same]
  exact seen

end Flow

/-! ## The operations of the service -/

section Service

variable {environment : Environment} {db after : Database}
  {proven : Uuid → ClaimVersion → Prop} {probed : Uuid → CheckType → Option ClaimVersion → Prop}

/-- A new registration has one new claim, which DNS has not verified, and no
decided edge check; adopting it changes that only for the ownership check. -/
theorem registered_flow {application : Application} {hostname reference : String} {fresh : Fresh}
    {now : Time} {domain : Domain}
    (registration : Registration environment application hostname reference fresh now db domain)
    (adopted : Bool) (adds : Adds db (if adopted then domain.adopted now else domain) after) :
    (∀ token ∈ tokens db, token ∈ tokens after) ∧ Flow proven probed db after := by
  obtain ⟨claim, single, token, status, method⟩ : ∃ claim : OwnershipClaim,
      domain.claims = [claim] ∧ claim.token = fresh.token ∧ claim.status = .pending ∧
        claim.verificationMethod = none := by
    rw [registration.eq]
    exact ⟨_, rfl, rfl, rfl, rfl⟩
  have pending : ∀ check ∈ domain.checks, check.status = .pending := by
    rw [registration.eq]
    intro check member
    obtain ⟨checkType, -, rfl⟩ := List.mem_map.mp member
    rfl
  have new : fresh.token ∉ tokens db := by
    intro seen
    obtain ⟨row, stored, other, inside, same⟩ := exists_of_mem_tokens seen
    exact (registration.unseen row stored other inside).2 same
  cases adopted with
  | false =>
      exact Flow.of_adds single (token ▸ new) (by simp [method])
        (fun check member _ => pending check member) adds
  | true =>
      have verified : (domain.adopted now).claims = [{ claim with
          status := .verified, verificationMethod := some .legacyImport,
          verifiedAt := some now }] := by
        have kept := Domain.observed_kept (domain.verified .legacyImport now) .ownership
          { status := .passing
            details := some { fields := [("source", ["legacy_import"])] }
            observedAt := now }
        have active : domain.activeClaim = some claim := by
          simp [Domain.activeClaim, single, status]
        rw [Domain.adopted, Domain.moved, kept.claims, Domain.verified, Domain.changeClaim, active]
        simp [Domain.updateClaim, single, OwnershipClaim.patch]
      refine Flow.of_adds verified (token ▸ new) (by simp) ?_ adds
      exact fun check member typed =>
        pending check (domain.adopted_sameChecks now check member typed)

/-- An operation that is not the worker's own decides nothing. -/
theorem Change.flow (consistent : db.Consistent environment)
    (change : Change environment (fun _ => False) db after) :
    (∀ token ∈ tokens db, token ∈ tokens after) ∧ Flow proven probed db after := by
  cases change with
  | quiet same => exact Flow.of_same same.domains
  | registered owner registration adopted adds => exact registered_flow registration adopted adds
  | evolved member evolves holds =>
      refine Flow.of_holds consistent.keyed member ?_ holds
      have sound := consistent.sound _ member
      cases evolves with
      | dns live admitted => exact admitted.1.elim
      | edge live admitted => exact admitted.1.elim
      | reissued live owner unseen now =>
          refine .reissued sound live (fun seen => ?_) _ now
          obtain ⟨row, stored, other, inside, same⟩ := exists_of_mem_tokens seen
          exact (unseen row stored other inside).2 same
      | tombstoned live now => exact .tombstoned sound live now
      | rescheduled live same => exact .rescheduled same
  | _ => exact Flow.of_same rfl

theorem ServiceStep.flow (consistent : db.Consistent environment)
    (step : ServiceStep environment (fun _ => False) db after) : Flow proven probed db after := by
  rcases step with changes | ⟨now, rfl⟩
  · have both : after.Consistent environment ∧
        (∀ token ∈ tokens db, token ∈ tokens after) ∧ Flow proven probed db after := by
      induction changes with
      | refl => exact ⟨consistent, Flow.of_same rfl⟩
      | tail _ change ih =>
          obtain ⟨consistent, kept, flow⟩ := ih
          obtain ⟨keptToo, next⟩ := Change.flow consistent change
          exact ⟨consistent.change change, fun token seen => keptToo token (kept token seen),
            flow.trans kept next⟩
    exact both.2.2
  · exact .of_sublist List.filter_sublist

theorem external_flow (consistent : db.Consistent environment) {op : ServiceOp}
    (external : isExternal op = true) : Flow proven probed db (op.run environment db) := by
  refine ServiceStep.flow consistent (ServiceOp.step consistent ?_)
  cases op with
  | applyDnsOutcomes | applyEdgeOutcomes => cases external
  | _ => trivial

end Service

end CustomDomain.Checks
