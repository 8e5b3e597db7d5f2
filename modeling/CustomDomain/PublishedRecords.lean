import CustomDomain.EdgeDecisions
import CustomDomain.OwnershipGrace
import CustomDomain.WorkerRuns
import CustomDomain.Zones

/-!
# From published records to a ready domain

`dns_records_for` of `app/v1/schemas.py` says what a customer is to publish.  The DNS checks pass
exactly where these records are found; passing DNS checks prove the domain, and passing edge checks
make a proven domain ready.
-/

namespace CustomDomain

open PythonText Zones

/-! ## The records -/

inductive RecordType where
  | txt
  | cname
  deriving DecidableEq

inductive RecordPurpose where
  | ownership
  | routing
  deriving DecidableEq

structure DnsRecord where
  name : String
  type : RecordType
  value : String
  purpose : RecordPurpose
  help : String
  deriving DecidableEq

def txtHelp : String :=
  "Create a TXT record with exactly this name and value. Many DNS providers " ++
    "expect only the part before your domain in the name field (for example " ++
    "`_custom-domain-challenge.forms`); do not add quotes and do not append the " ++
    "domain twice. Propagation can take up to the record's TTL."

def cnameHelp : String :=
  "Point the hostname at the target with a CNAME record. Remove any A or AAAA " ++
    "record with the same name, do not proxy the record through a CDN until the " ++
    "domain is ready, and do not use a URL: the value is a hostname only."

/-- `dns_records_for`. -/
def dnsRecordsFor (domain : Domain) : List DnsRecord :=
  match domain.activeClaim.filter fun claim => claim.status ≠ .revoked with
  | none => []
  | some claim =>
      [{ name := claim.txtRecordName
         type := .txt
         value := claim.txtRecordValue
         purpose := .ownership
         help := txtHelp },
       { name := domain.hostname
         type := .cname
         value := claim.cnameTarget
         purpose := .routing
         help := cnameHelp }]

/-- The checks find the record: the text at the name, or the target on the way from it. -/
def DnsRecord.foundBy (record : DnsRecord) (resolver : Resolver) : Bool :=
  match record.type with
  | .txt =>
      match resolver.txt record.name with
      | .ok values => values.any fun value => strip value == record.value
      | .error _ => false
  | .cname =>
      match cnameChain resolver record.name record.value with
      | .ok chain => decide (record.value ∈ chain)
      | .error _ => false

/-- Every record of the domain is found. -/
def Domain.publishedTo (domain : Domain) (resolver : Resolver) : Bool :=
  (dnsRecordsFor domain).all (·.foundBy resolver)

section Published

variable {resolver : Resolver} {domain : Domain} {claim : OwnershipClaim}

theorem activeClaim_not_revoked (active : domain.activeClaim = some claim) : claim.status ≠ .revoked := by
  have selected := List.find?_some active
  simpa using selected

theorem dnsRecordsFor_active (active : domain.activeClaim = some claim) :
    dnsRecordsFor domain =
      [⟨claim.txtRecordName, .txt, claim.txtRecordValue, .ownership, txtHelp⟩,
        ⟨domain.hostname, .cname, claim.cnameTarget, .routing, cnameHelp⟩] := by
  have kept : domain.activeClaim.filter (fun claim => claim.status ≠ .revoked) = some claim := by
    rw [active, Option.filter_some, if_pos (by simpa using activeClaim_not_revoked active)]
  rw [dnsRecordsFor, kept]

/-- The ownership check passes exactly where the `TXT` record is found. -/
theorem ownershipOutcome_passing_eq (active : domain.activeClaim = some claim) :
    (ownershipOutcome resolver domain).passing =
      DnsRecord.foundBy ⟨claim.txtRecordName, .txt, claim.txtRecordValue, .ownership, txtHelp⟩
        resolver := by
  unfold ownershipOutcome DnsRecord.foundBy
  rw [active]
  dsimp only
  cases answer : resolver.txt claim.txtRecordName with
  | error failure => cases failure <;> rfl
  | ok values =>
      cases values with
      | nil => rfl
      | cons first rest =>
          dsimp only
          split
          next own => exact own.symm
          next other =>
            rw [Bool.eq_false_iff.mpr other]
            split <;> rfl

/-- The routing check passes exactly where the `CNAME` record is found. -/
theorem routingOutcome_passing_eq (active : domain.activeClaim = some claim) :
    (routingOutcome resolver domain).passing =
      DnsRecord.foundBy ⟨domain.hostname, .cname, claim.cnameTarget, .routing, cnameHelp⟩ resolver := by
  unfold routingOutcome DnsRecord.foundBy
  rw [active]
  dsimp only
  cases answer : cnameChain resolver domain.hostname claim.cnameTarget with
  | error failure => cases failure <;> rfl
  | ok chain =>
      cases chain with
      | nil =>
          dsimp only
          split <;> rfl
      | cons first rest =>
          dsimp only
          split
          next reached => exact (decide_eq_true reached).symm
          next missed => exact (decide_eq_false missed).symm

/-- Both DNS checks pass exactly where the records are published. -/
theorem publishedTo_iff (active : domain.activeClaim = some claim) :
    domain.publishedTo resolver = true ↔ (ownershipOutcome resolver domain).passing = true ∧
      (routingOutcome resolver domain).passing = true := by
  rw [Domain.publishedTo, dnsRecordsFor_active active, ownershipOutcome_passing_eq active,
    routingOutcome_passing_eq active]
  simp

end Published

/-! ## Probes that succeed -/

/-- The edge answers on the health path with a certificate that is not about to expire. -/
def Checks.Prober.certifies (prober : Checks.Prober) (now : Time) : Bool :=
  prober.disableHttps ||
    match prober.edge with
    | .ok probe => decide (probe.status = 204 ∧ probe.edgeHeader = some edgeHealthValue ∧
        0 < probe.notAfter - now ∧ expiryWarning probe ≤ probe.notAfter - now)
    | .error _ => false

/-- The origin answers for the domain's own workspace, where the application wants it asked. -/
def Checks.Prober.serves (prober : Checks.Prober) (domain : Domain) (application : Application) : Bool :=
  match prober.workspace with
  | none => true
  | some probed =>
      !application.workspaceProbeEnabled ||
        match probed with
        | .ok probe => decide (probe.status = 200) && probe.reference.any (probe.serves domain)
        | .error _ => false

theorem certificateOutcome_passing_eq (prober : Checks.Prober) (domain : Domain) (now : Time) :
    (certificateOutcome prober.formats prober.edge domain prober.disableHttps now).passing =
      prober.certifies now := by
  unfold certificateOutcome Checks.Prober.certifies
  cases disabled : prober.disableHttps with
  | true => rfl
  | false =>
      cases answer : prober.edge with
      | error failure => rfl
      | ok probe =>
          simp only [Bool.false_or, Bool.false_eq_true, if_false]
          split
          next elsewhere =>
            refine (decide_eq_false ?_).symm
            rintro ⟨status, header, -, -⟩
            exact elsewhere.elim (absurd status) (absurd header)
          next here =>
            rw [not_or, not_not, not_not] at here
            split
            next expired => exact (decide_eq_false fun facts => absurd facts.2.2.1 (not_lt.mpr expired)).symm
            next valid =>
              split
              next expiring => exact (decide_eq_false fun facts => absurd expiring (not_lt.mpr facts.2.2.2)).symm
              next lasting =>
                exact (decide_eq_true ⟨here.1, here.2, not_le.mp valid, not_lt.mp lasting⟩).symm

theorem originOutcome_passing_eq (prober : Checks.Prober) (domain : Domain) (application : Application)
    (origin : VerifiedOrigin) :
    (originOutcome prober.formats domain (some application) (some origin) prober.workspace).passing =
      prober.serves domain application := by
  unfold originOutcome Checks.Prober.serves
  cases asked : prober.workspace with
  | none => rfl
  | some probed =>
      dsimp only
      cases enabled : application.workspaceProbeEnabled with
      | false => rfl
      | true =>
          cases probed with
          | error failure => rfl
          | ok probe =>
              simp only [Bool.not_true, Bool.false_eq_true, if_false, Bool.false_or]
              by_cases answered : probe.status = 200
              · rw [if_neg (not_not.mpr answered), decide_eq_true answered, Bool.true_and]
                cases told : probe.reference with
                | none => rfl
                | some reference =>
                    rw [Option.any_some]
                    dsimp only
                    cases probe.serves domain reference <;> rfl
              · rw [if_pos answered, decide_eq_false answered, Bool.false_and]
                rfl

/-! ## What the outcomes make of the domain -/

namespace Domain

/-- What a domain is once both DNS checks have passed. -/
structure Proven (domain : Domain) : Prop where
  status : domain.status ∈ routableStatuses
  verified : domain.activeClaim.map (·.status) = some .verified
  ownership : domain.snapshot.checks .ownership = some .passing
  routing : domain.snapshot.checks .routing = some .passing

/-- A ready domain, with everything that readiness rests on. -/
structure IsReady (domain : Domain) : Prop where
  status : domain.status = .ready
  verified : domain.activeClaim.map (·.status) = some .verified
  passing : checksPassing domain = true

theorem Complete.checksPassing_of {domain : Domain} (complete : domain.Complete)
    (passing : ∀ checkType, domain.snapshot.checks checkType = some .passing) :
    checksPassing domain = true := by
  rw [complete.checksPassing_iff]
  intro check member
  have found := passing check.checkType
  rw [snapshot_checks, complete.check_eq member, Option.map_some, Option.some.injEq] at found
  exact found

theorem proven_verified {domain : Domain} (sound : domain.Sound) (live : domain.isLive = true)
    (now : Time) : ((domain.proven now).activeClaim.map (·.status)) = some .verified := by
  obtain ⟨claim, single, active⟩ := sound.activeClaim live
  rw [proven, active, Option.map_some]
  split
  next pending =>
    rw [activeClaim_eq, verified_liveClaims sound single]
    rfl
  next open_ =>
    rw [active, Option.map_some]
    have kept := activeClaim_not_revoked active
    cases status : claim.status with
    | pending => exact absurd (congrArg some status) open_
    | verified => rfl
    | revoked => exact absurd status kept

theorem outcomeRecorded_checks (domain : Domain) (checkType : CheckType) (outcome : Outcome)
    (fast : Bool) (now : Time) :
    (domain.outcomeRecorded checkType outcome fast now).snapshot.checks =
      Function.update domain.snapshot.checks checkType (some outcome.status) :=
  domain.observed_checks _ _

theorem proven_checks (domain : Domain) (now : Time) :
    (domain.proven now).snapshot.checks = domain.snapshot.checks := by
  funext checkType
  rw [snapshot_checks, snapshot_checks, check, check, (domain.proven_frame now).2]

/-- Both DNS checks have passed: the domain is proven, and one that was not served moves on. -/
theorem passedDns_proven {domain : Domain} (sound : domain.Sound) (live : domain.isLive = true)
    (owned : domain.snapshot.checks .ownership = some .passing)
    (routed : domain.snapshot.checks .routing = some .passing) (now : Time) :
    (domain.passedDns now).Proven ∧
      (domain.status = .pendingDns ∨ domain.status = .suspended →
        (domain.passedDns now).status ≠ domain.status) := by
  have verified := proven_verified sound live now
  have status := (domain.proven_frame now).1
  rw [← domain.proven_checks now] at owned routed
  have open_ := (sound.live live).1
  unfold passedDns
  dsimp only
  generalize domain.proven now = row at *
  rw [← status] at open_ ⊢
  split
  next closed =>
    have moves : ∀ status, (row.moved status now).status = status := fun _ => rfl
    refine ⟨⟨(by decide : DomainStatus.provisioning ∈ routableStatuses), verified, owned, routed⟩,
      fun _ => ?_⟩
    rcases closed with closed | closed <;> rw [moves, closed] <;> decide
  next served =>
    split
    next =>
      exact ⟨⟨(by decide : DomainStatus.ready ∈ routableStatuses), verified, owned, routed⟩,
        fun closed => absurd closed served⟩
    next =>
      refine ⟨⟨?_, verified, owned, routed⟩, fun closed => absurd closed served⟩
      cases before : row.status with
      | pendingDns => exact absurd (.inl before) served
      | suspended => exact absurd (.inr before) served
      | deleting => exact absurd before open_
      | provisioning | ready | attentionRequired => decide

theorem dnsApplied_proven {domain : Domain} (sound : domain.Sound) (live : domain.isLive = true)
    {ownership routing : Outcome} (owned : ownership.passing = true) (routed : routing.passing = true)
    (now : Time) :
    (domain.dnsApplied ownership routing now).Proven ∧
      (domain.status = .pendingDns ∨ domain.status = .suspended →
        (domain.dnsApplied ownership routing now).status ≠ domain.status) := by
  have passedOwnership : ownership.status = .passing := by simpa [Outcome.passing] using owned
  have passedRouting : routing.status = .passing := by simpa [Outcome.passing] using routed
  have status := domain.dnsRecorded_status ownership routing now
  rw [passedOwnership, passedRouting, if_neg (by simp)] at status
  have checks : (domain.dnsRecorded ownership routing now).snapshot.checks =
      Function.update (Function.update domain.snapshot.checks .ownership (some .passing)) .routing
        (some .passing) := by
    rw [dnsRecorded, outcomeRecorded_checks, outcomeRecorded_checks, passedOwnership, passedRouting]
  obtain ⟨sound, live⟩ := sound.outcomeRecorded live .ownership ownership (fastRecheckDue domain now) now
  obtain ⟨sound, live⟩ := sound.outcomeRecorded live .routing routing (fastRecheckDue domain now) now
  have proven := passedDns_proven sound live (by rw [← dnsRecorded, checks]; rfl)
    (by rw [← dnsRecorded, checks]; rfl) now
  rw [← dnsRecorded, status] at proven
  rw [dnsApplied_eq, owned, routed, Bool.and_self, if_pos rfl]
  exact proven

/-- Passing edge outcomes make a proven domain ready. -/
theorem edgeApplied_ready {domain : Domain} (sound : domain.Sound) (proven : domain.Proven)
    {certificate origin : Outcome} (certified : certificate.passing = true)
    (served : origin.passing = true) (now : Time) :
    (domain.edgeApplied certificate origin now).IsReady := by
  have passedCertificate : certificate.status = .passing := by simpa [Outcome.passing] using certified
  have passedOrigin : origin.status = .passing := by simpa [Outcome.passing] using served
  have checks : ((domain.outcomeRecorded .certificate certificate false now).outcomeRecorded .origin
      origin false now).snapshot.checks =
        Function.update (Function.update domain.snapshot.checks .certificate (some .passing)) .origin
          (some .passing) := by
    rw [outcomeRecorded_checks, outcomeRecorded_checks, passedCertificate, passedOrigin]
  have status : ((domain.outcomeRecorded .certificate certificate false now).outcomeRecorded .origin
      origin false now).status = domain.status := by
    have same : ∀ (outcome : Outcome) (check : Option DomainCheck),
        (outcome.observation check false now).status = outcome.status := fun _ _ => rfl
    rw [outcomeRecorded, observed_status, outcomeRecorded, observed_status, same, same,
      passedCertificate, passedOrigin]
    simp
  have kept := (domain.outcomeRecorded_kept .certificate certificate false now).trans
    (outcomeRecorded_kept _ .origin origin false now)
  have complete := (sound.complete.outcomeRecorded .certificate certificate false now).outcomeRecorded
    .origin origin false now
  have passing := complete.checksPassing_of fun checkType => by
    rw [checks]
    cases checkType with
    | ownership => exact proven.ownership
    | routing => exact proven.routing
    | certificate => rfl
    | origin => rfl
  have verified := proven.verified
  rw [← kept.activeClaim] at verified
  unfold edgeApplied
  generalize (domain.outcomeRecorded .certificate certificate false now).outcomeRecorded .origin origin
    false now = row at *
  dsimp only
  split
  next => exact ⟨rfl, verified, passing⟩
  next stays =>
    have routable := proven.status
    rw [← status] at routable
    refine ⟨?_, verified, passing⟩
    by_contra unready
    refine stays ⟨?_, verified, passing⟩
    simpa [routableStatuses, unready] using routable

end Domain

end CustomDomain
