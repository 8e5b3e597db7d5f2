import CustomDomain.RowChanges
import CustomDomain.TransactionSerial
import CustomDomain.WorkerStatements

/-!
# The worker against deletion and re-issue

The worker applies its outcomes under the application lock, which `delete_domain`
and `reissue_claim` do not take, so the lock does not keep them apart.  What does
is that neither of the two transactions takes its first read of the domain while
the other one is between its own first read and its end: then the committed rows
are those of the two transactions one after the other.
-/

namespace CustomDomain

open Transaction Relation

/-! ## Which events the transactions add -/

def EventPayload.isDeletion : EventPayload → Bool
  | .domainDeleted _ _ => true
  | _ => false

def EventPayload.isStatusChange : EventPayload → Bool
  | .statusChanged _ _ _ => true
  | _ => false

def NotDeletion (payload : EventPayload) : Prop := payload.isDeletion = false

/-- A change that deletes nothing and records no deletion. -/
abbrev Ordinary : (Database → Database) → Prop := RowWise Eq Domain.Counts NotDeletion

section Within

theorem logEvent_within (domain : Domain) {payload : EventPayload} (ordinary : NotDeletion payload)
    (now : Time) : (recordEvent domain payload now).Within Ordinary NotLimitReached :=
  recordEvent_within Permits.counts domain ordinary now

theorem storeDomain_within (before after : Domain) (same : after.deletedAt = before.deletedAt) :
    (flushDomain before after).Within Ordinary NotLimitReached :=
  flushDomain_within Permits.counts before after same

theorem storeCheck_within (domain : Domain) (checkType : CheckType) (observation : Observation) :
    (storeCheck domain checkType observation).Within Ordinary NotLimitReached := by
  unfold storeCheck
  split
  next => exact (insertCheck_within Permits.counts _ _).bind fun _ => trivial
  next => exact (flushCheck_within Permits.counts _ _ _).bind fun _ => trivial

theorem transitionStatus_within (domain : Domain) (status : DomainStatus)
    (reason : Option String) (now : Time) :
    (transitionStatus domain status reason now).Within Ordinary NotLimitReached := by
  unfold transitionStatus
  split
  next error refused =>
    intro scope limit live same
    rw [same] at refused
    unfold transitionRefusal at refused
    split_ifs at refused <;> cases refused
  next =>
    split
    next => exact trivial
    next =>
      exact Program.Within.bind (storeDomain_within domain _ rfl) fun _ =>
        Program.Within.bind (logEvent_within _ (by exact rfl) _) fun _ => trivial

theorem recordCheck_within (domain : Domain) (checkType : CheckType)
    (observation : Observation) :
    (recordCheck domain checkType observation).Within Ordinary NotLimitReached := by
  refine (storeCheck_within domain checkType observation).bind fun domain => ?_
  refine Program.Within.bind (logEvent_within _ (by exact rfl) _) fun _ => ?_
  split
  next => exact transitionStatus_within _ _ _ _
  next => exact trivial

theorem recordOutcome_within (domain : Domain) (checkType : CheckType) (outcome : Outcome)
    (fast : Bool) (now : Time) :
    (recordOutcome domain checkType outcome fast now).Within Ordinary NotLimitReached :=
  recordCheck_within domain checkType _

theorem markClaimVerified_within (domain : Domain) (method : VerificationMethod) (now : Time) :
    (markClaimVerified domain method now).Within Ordinary NotLimitReached := by
  unfold markClaimVerified
  split
  next => exact fun _ _ _ => by simp
  next =>
    split
    next => exact fun _ _ _ => by simp
    next =>
      exact Program.Within.bind (flushClaim_within Permits.counts _ _ _) fun _ =>
        Program.Within.bind (logEvent_within _ (by exact rfl) _) fun _ => trivial

theorem applyDnsOutcomes_within (domain : Domain) (ownership routing : Outcome) (now : Time) :
    (applyDnsOutcomes domain ownership routing now).Within Ordinary NotLimitReached := by
  unfold applyDnsOutcomes
  refine (recordOutcome_within domain .ownership _ _ _).bind fun domain => ?_
  refine (recordOutcome_within domain .routing _ _ _).bind fun domain => ?_
  split
  next =>
    refine Program.Within.bind ?_ fun domain => ?_
    · unfold verifyPending
      split
      next => exact markClaimVerified_within _ _ _
      next => exact trivial
    · split
      next => exact transitionStatus_within _ _ _ _
      next =>
        split
        next => exact transitionStatus_within _ _ _ _
        next => exact trivial
  next =>
    unfold dnsFailed
    dsimp only
    split
    next => exact transitionStatus_within _ _ _ _
    next =>
      split
      next => exact transitionStatus_within _ _ _ _
      next => exact trivial

theorem applyEdgeOutcomes_within (domain : Domain) (certificate origin : Outcome) (now : Time) :
    (applyEdgeOutcomes domain certificate origin now).Within Ordinary NotLimitReached := by
  unfold applyEdgeOutcomes
  refine (recordOutcome_within domain .certificate _ _ _).bind fun domain => ?_
  refine (recordOutcome_within domain .origin _ _ _).bind fun domain => ?_
  split
  next => exact transitionStatus_within _ _ _ _
  next => exact trivial

theorem setNextCheck_within (domainId : Uuid) (selects : DomainCheck → Bool) (at_ : Time) :
    (setNextCheck domainId selects at_).Within Ordinary NotLimitReached :=
  fun _ => ⟨updateDomain_rowWise Permits.counts (fun _ => rfl) (fun _ => rfl) fun _ => rfl, trivial⟩

theorem underLock_within {α : Type} (applicationId domainId : Uuid)
    {body : Option Loaded → Sql α}
    (within : ∀ found, (body found).Within Ordinary NotLimitReached) :
    (do
      lockApplication applicationId
      let found ← loadDomain domainId
      body found : Sql α).Within Ordinary NotLimitReached := by
  have locks : (lockApplication applicationId).Within Ordinary NotLimitReached :=
    fun _ => ⟨.of_same (fun _ => rfl) Permits.counts.refl (fun _ => rfl) (fun _ => rfl)
      (fun _ => rfl) fun _ => ⟨[], by simp, (List.append_nil _).symm⟩, trivial⟩
  refine locks.bind fun _ => ?_
  refine Program.Within.bind ?_ within
  exact (selectDomain_within _).bind fun _ => trivial

theorem applyDnsPhase_within (domainId applicationId : Uuid) (results : DnsResults)
    (now : Time) :
    (applyDnsPhase domainId applicationId results now).Within Ordinary NotLimitReached := by
  refine underLock_within applicationId domainId fun found => ?_
  cases found with
  | none => exact trivial
  | some loaded =>
      dsimp only
      split
      next => exact (setNextCheck_within _ _ _).bind fun _ => trivial
      next =>
        refine (applyDnsOutcomes_within _ _ _ _).bind fun domain => ?_
        refine Program.Within.bind ?_ fun domain => Program.Within.bind ?_ fun _ => trivial
        · unfold storeZone
          split
          next => exact Program.Within.bind (storeDomain_within _ _ rfl) fun _ => trivial
          next => exact trivial
        · unfold leaseEdgeChecks
          split
          next => exact setNextCheck_within _ _ _
          next => exact trivial

theorem applyEdgePhase_within (domainId applicationId : Uuid) (results : EdgeResults)
    (now : Time) :
    (applyEdgePhase domainId applicationId results now).Within Ordinary NotLimitReached := by
  refine underLock_within applicationId domainId fun found => ?_
  cases found with
  | none => exact trivial
  | some loaded =>
      dsimp only
      split
      next => exact trivial
      next => exact (applyEdgeOutcomes_within _ _ _ _).bind fun _ => trivial

theorem reissueClaim_within (application : Application) (domainId claimId : Uuid)
    (token : String) (now : Time) :
    (reissueClaim application domainId claimId token now).Within Ordinary NotLimitReached := by
  have permits := Permits.counts
  unfold reissueClaim getDomain
  refine Program.Within.bind ((selectDomain_within _).bind fun found => ?_) fun domain => ?_
  · cases found with
    | none => exact fun _ _ _ => by simp
    | some loaded => exact trivial
  refine (revokeLiveClaim_within permits (fun _ _ => rfl) _ _ _).bind fun domain => ?_
  refine Program.Within.bind (Program.Within.foldEach fun domain checkType =>
    recordCheck_within domain checkType _) fun domain => ?_
  refine Program.Within.bind ?_ fun domain => ?_
  · unfold leaveStatus
    split
    next => exact transitionStatus_within _ _ _ _
    next => exact trivial
  exact (issueClaim_within permits (fun _ _ => rfl) _ _ _ _ _).bind fun domain =>
    refresh_within domain

end Within

/-! ## Ready and provisioning rest on a verified claim -/

/-- The domain's status was earned under its live claim. -/
def Domain.ClaimEarned (domain : Domain) : Prop :=
  domain.status = .ready ∨ domain.status = .provisioning →
    (domain.activeClaim.map (·.status)) = some .verified

namespace Domain

theorem ClaimEarned.outcomeRecorded {domain : Domain} (earned : domain.ClaimEarned)
    (checkType : CheckType) (outcome : Outcome) (fast : Bool) (now : Time) :
    (domain.outcomeRecorded checkType outcome fast now).ClaimEarned := by
  intro reached
  rw [(domain.outcomeRecorded_kept checkType outcome fast now).activeClaim]
  refine earned ?_
  rw [Domain.outcomeRecorded, observed_status] at reached
  split at reached
  next => simp at reached
  next => exact reached

theorem ClaimEarned.dnsApplied {domain : Domain} (earned : domain.ClaimEarned)
    (sound : domain.Sound) (live : domain.isLive = true) (ownership routing : Outcome)
    (now : Time) : (domain.dnsApplied ownership routing now).ClaimEarned := by
  have first := earned.outcomeRecorded .ownership ownership (fastRecheckDue domain now) now
  obtain ⟨sound, live⟩ := sound.outcomeRecorded live .ownership ownership
    (fastRecheckDue domain now) now
  have second := first.outcomeRecorded .routing routing (fastRecheckDue domain now) now
  obtain ⟨sound, live⟩ := sound.outcomeRecorded live .routing routing
    (fastRecheckDue domain now) now
  rw [Domain.dnsApplied]
  split
  next =>
    intro _
    have claimed := proven_claim sound live now
    rw [passedDns]
    split
    next => exact claimed
    next =>
      split
      next => exact claimed
      next => exact claimed
  next =>
    unfold failedDns
    split
    next => exact fun reached => by simp [moved] at reached
    next =>
      split
      next => exact fun reached => by simp [moved] at reached
      next => exact second

theorem ClaimEarned.edgeApplied {domain : Domain} (earned : domain.ClaimEarned)
    (certificate origin : Outcome) (now : Time) :
    (domain.edgeApplied certificate origin now).ClaimEarned := by
  have recorded := (earned.outcomeRecorded .certificate certificate false now).outcomeRecorded
    .origin origin false now
  rw [Domain.edgeApplied]
  split
  next guard => exact fun _ => guard.2.1
  next => exact recorded

theorem ClaimEarned.rescheduled {first second : Domain} (earned : first.ClaimEarned)
    (same : first.Rescheduled second) : second.ClaimEarned := by
  unfold ClaimEarned
  rw [same.status, same.activeClaim]
  exact earned

/-- A re-issue leaves no status that was earned. -/
theorem reissued_claimEarned (domain : Domain) (claimId : Uuid) (token cnameTarget : String)
    (now : Time) : (domain.reissued claimId token cnameTarget now).ClaimEarned := by
  have other : (domain.reset now).status ≠ .ready ∧ (domain.reset now).status ≠ .provisioning := by
    rw [reset]
    split
    next => exact ⟨by simp [moved], by simp [moved]⟩
    next kept => exact ⟨fun ready => kept (by rw [ready]; decide),
      fun provisioning => kept (by rw [provisioning]; decide)⟩
  rw [Domain.reissued]
  generalize domain.reset now = cleared at other
  exact fun reached => (reached.elim other.1 other.2).elim

end Domain

/-! ## The two transactions -/

/-- The applying transaction of a worker's run. -/
inductive WorkerApply where
  | dns (applicationId : Uuid) (results : DnsResults) (now : Time)
  | edge (applicationId : Uuid) (results : EdgeResults) (now : Time)

def WorkerApply.program (domainId : Uuid) : WorkerApply → Sql Unit
  | .dns applicationId results now => do
      let _ ← applyDnsPhase domainId applicationId results now
      pure ()
  | .edge applicationId results now => do
      let _ ← applyEdgePhase domainId applicationId results now
      pure ()

theorem WorkerApply.program_within (domainId : Uuid) (worker : WorkerApply) :
    (worker.program domainId).Within Ordinary NotLimitReached := by
  cases worker with
  | dns applicationId results now =>
      exact Program.Within.bind (applyDnsPhase_within domainId applicationId results now)
        fun _ => trivial
  | edge applicationId results now =>
      exact Program.Within.bind (applyEdgePhase_within domainId applicationId results now)
        fun _ => trivial

/-- What the API or the portal does to the domain meanwhile. -/
inductive ClaimChange where
  | deleteDomain (application : Application) (now : Time)
  | reissueClaim (application : Application) (claimId : Uuid) (token : String) (now : Time)

def ClaimChange.program (domainId : Uuid) : ClaimChange → Sql Unit
  | .deleteDomain application now => do
      let _ ← CustomDomain.deleteDomain application domainId now
      pure ()
  | .reissueClaim application claimId token now => do
      let _ ← CustomDomain.reissueClaim application domainId claimId token now
      pure ()

/-- The worker is `false`, the other transaction `true`. -/
def contenders (domainId : Uuid) (worker : WorkerApply) (change : ClaimChange) : Bool → Sql Unit
  | false => worker.program domainId
  | true => change.program domainId

/-- The worker's `lock_application` does not look at the domain. -/
def blindStatements : Bool → Nat
  | false => 1
  | true => 0

theorem contenders_blind (domainId : Uuid) (worker : WorkerApply) (change : ClaimChange)
    (index : Bool) : (contenders domainId worker change index).Blind (blindStatements index) := by
  cases index with
  | false => cases worker <;> exact ⟨_, _, rfl, trivial⟩
  | true => trivial

/-- Keys are unique and every domain is sound, as in every state the service
reaches. -/
structure Database.Settled (db : Database) : Prop where
  keyed : db.Keyed
  sound : ∀ domain ∈ db.domains, domain.Sound

theorem Database.Settled.holds {db after : Database} {domain : Domain} (settled : db.Settled)
    (holds : Holds db domain after) (sound : domain.Sound) : after.Settled where
  keyed := holds.keyed settled.keyed
  sound row member := by
    rw [holds.domains] at member
    obtain ⟨before, stored, rfl⟩ := List.mem_map.mp member
    split
    next => exact sound
    next => exact settled.sound before stored

section Contenders

variable {db after : Database} {domainId : Uuid} (settled : db.Settled)

include settled

/-- The worker leaves the rows alone, or replaces a live domain by a sound one
whose status is earned if it was. -/
theorem WorkerApply.run_cases (worker : WorkerApply) {value : Unit}
    (ran : (worker.program domainId).run db = (.ok value, after)) :
    after = db ∨ ∃ before domain, db.Loads domainId before ∧ domain.id = domainId ∧
      Holds db domain after ∧ domain.Sound ∧ (before.ClaimEarned → domain.ClaimEarned) := by
  cases worker with
  | dns applicationId results now =>
      have spec : (WorkerApply.program domainId (.dns applicationId results now)).Returns db
          fun _ after => after = db ∨ ∃ before domain, db.Loads domainId before ∧
            domain.id = domainId ∧ Holds db domain after ∧ domain.Sound ∧
            (before.ClaimEarned → domain.ClaimEarned) := by
        refine (applyDnsPhase_spec settled.keyed settled.sound domainId applicationId results
          now).bind fun phase after ended => .of_pure ?_
        cases phase with
        | gone => exact .inl ended
        | discarded =>
            obtain ⟨before, loads, -, holds⟩ := ended
            have same := before.scheduled_rescheduled
              (fun check => decide (check.checkType ∈ dnsCheckTypes)) now
            exact .inr ⟨before, _, loads, same.id.trans loads.2.1, holds,
              same.sound (settled.sound before loads.1), fun earned => earned.rescheduled same⟩
        | applied result edgeDue =>
            obtain ⟨before, loads, -, rfl, -, holds⟩ := ended
            have same := ((before.dnsApplied results.ownership results.routing
              now).zoned_rescheduled results.zone now).trans
              (Domain.edgeLeased_rescheduled _ results.statusBefore results.edgeDue now)
            have sound := settled.sound before loads.1
            refine .inr ⟨before, _, loads, ?_, holds, ?_, fun earned => ?_⟩
            · exact (same.id.trans (before.dnsApplied_alike _ _ now).id).trans loads.2.1
            · exact same.sound (sound.dnsApplied loads.2.2.1 _ _ now)
            · exact (earned.dnsApplied sound loads.2.2.1 _ _ now).rescheduled same
      exact spec.result ran
  | edge applicationId results now =>
      have spec : (WorkerApply.program domainId (.edge applicationId results now)).Returns db
          fun _ after => after = db ∨ ∃ before domain, db.Loads domainId before ∧
            domain.id = domainId ∧ Holds db domain after ∧ domain.Sound ∧
            (before.ClaimEarned → domain.ClaimEarned) := by
        refine (applyEdgePhase_spec settled.keyed settled.sound domainId applicationId results
          now).bind fun phase after ended => .of_pure ?_
        cases phase with
        | gone => exact .inl ended
        | discarded => exact .inl ended
        | applied result =>
            obtain ⟨before, loads, -, -, rfl, holds⟩ := ended
            have sound := settled.sound before loads.1
            refine .inr ⟨before, _, loads, ?_, holds, ?_, fun earned => ?_⟩
            · exact (before.edgeApplied_kept _ _ now).id.trans loads.2.1
            · exact sound.edgeApplied loads.2.2.1 _ _ now
            · exact earned.edgeApplied _ _ now
      exact spec.result ran

/-- A deletion leaves the rows alone, or a tombstone. -/
theorem deleteDomain_cases {application : Application} {now : Time} {value : Unit}
    (ran : (ClaimChange.program domainId (.deleteDomain application now)).run db =
      (.ok value, after)) :
    after = db ∨ ∃ before, before ∈ db.domains ∧ before.id = domainId ∧ before.isLive = true ∧
      Holds db (before.tombstoned now) after := by
  have spec : (ClaimChange.program domainId (.deleteDomain application now)).Ensures db
      fun _ after => after = db ∨ ∃ before, before ∈ db.domains ∧ before.id = domainId ∧
        before.isLive = true ∧ Holds db (before.tombstoned now) after := by
    refine ((deleteDomain_spec settled.keyed application domainId now).mono
      (fun _ _ post => post) fun _ _ _ => trivial).bind ?_
    rintro _ after ⟨before, member, key, -, ⟨-, -, rfl⟩ | ⟨live, -, holds⟩⟩
    · exact .of_pure (.inl rfl)
    · exact .of_pure (.inr ⟨before, member, key, live, holds⟩)
  exact spec.result ran

/-- A re-issue replaces a live domain by the re-issued one. -/
theorem reissueClaim_cases {application : Application} {claimId : Uuid} {token : String}
    {now : Time} {value : Unit}
    (ran : (ClaimChange.program domainId (.reissueClaim application claimId token now)).run db =
      (.ok value, after)) :
    ∃ before, before ∈ db.domains ∧ before.id = domainId ∧ before.isLive = true ∧
      (∀ claim ∈ before.claims, claim.id ≠ claimId) ∧
      Holds db (before.reissued claimId token application.cnameTarget now) after := by
  have spec : (ClaimChange.program domainId (.reissueClaim application claimId token now)).Ensures
      db fun _ after => ∃ before, before ∈ db.domains ∧ before.id = domainId ∧
        before.isLive = true ∧ (∀ claim ∈ before.claims, claim.id ≠ claimId) ∧
        Holds db (before.reissued claimId token application.cnameTarget now) after := by
    refine ((reissueClaim_spec settled.keyed settled.sound application domainId claimId token
      now).mono (fun _ _ post => post) fun _ _ _ => trivial).bind ?_
    rintro _ after ⟨before, member, key, -, live, unseen, -, holds⟩
    exact .of_pure ⟨before, member, key, live,
      fun claim inside => (unseen before member claim inside).1, holds⟩
  exact spec.result ran

end Contenders

/-! ## Together -/

/-- No status change after a deletion. -/
def ClosedByDeletion (events : List DomainEvent) : Prop :=
  events.Pairwise fun earlier later =>
    earlier.payload.isDeletion = true → later.payload.isStatusChange = false

theorem closedByDeletion_of_open {events : List DomainEvent}
    (open_ : ∀ event ∈ events, NotDeletion event.payload) : ClosedByDeletion events := by
  refine List.Pairwise.imp_of_mem (fun member _ _ deletion => ?_) (List.pairwise_of_forall
    fun _ _ => trivial)
  exact absurd (deletion.symm.trans (open_ _ member)) (by simp)

theorem closedByDeletion_of_quiet {events : List DomainEvent}
    (quiet : ∀ event ∈ events, event.payload.isStatusChange = false) :
    ClosedByDeletion events :=
  List.Pairwise.imp_of_mem (fun _ member _ _ => quiet _ member) (List.pairwise_of_forall
    fun _ _ => trivial)

/-- The events a transaction adds are of the kind its statements record. -/
theorem added_of_within {α : Type} {program : Sql α} {kept : Application → Application → Prop}
    {related : Domain → Domain → Prop} {logged : EventPayload → Prop}
    {error : ServiceError → Prop} (within : program.Within (RowWise kept related logged) error)
    {db after : Database} {value : α} (ran : program.run db = (.ok value, after)) :
    ∃ added, (∀ event ∈ added, logged event.payload) ∧ after.events = db.events ++ added := by
  refine Program.Spec.result (within.spec
    (fun after => ∃ added, (∀ event ∈ added, logged event.payload) ∧
      after.events = db.events ++ added) (fun made stored rowWise => ?_)
    ⟨[], by simp, (List.append_nil _).symm⟩) ran
  rintro ⟨added, logs, events⟩
  obtain ⟨more, logs', events'⟩ := rowWise.events stored
  refine ⟨added ++ more, fun event member => ?_, ?_⟩
  · exact (List.mem_append.mp member).elim (logs event) (logs' event)
  · rw [events', events, List.append_assoc]

/-- The domain is deleted, or there is none. -/
def Database.Gone (db : Database) (domainId : Uuid) : Prop :=
  ∀ domain ∈ db.domains, domain.id = domainId → domain.isLive = false

/-- The domain's status is earned. -/
def Database.Earned (db : Database) (domainId : Uuid) : Prop :=
  ∀ domain ∈ db.domains, domain.id = domainId → domain.ClaimEarned

theorem Holds.earned {db after : Database} {domain : Domain} {domainId : Uuid}
    (holds : Holds db domain after) (key : domain.id = domainId) (earned : domain.ClaimEarned) :
    after.Earned domainId := by
  intro row member same
  rw [holds.row_eq member (same.trans key.symm)]
  exact earned

section Serial

variable {base db after : Database} {domainId : Uuid} {worker : WorkerApply}
  {change : ClaimChange}

theorem contender_settled (settled : db.Settled) {index : Bool} {value : Unit}
    (ran : (contenders domainId worker change index).run db = (.ok value, after)) :
    after.Settled := by
  cases index with
  | false =>
      rcases WorkerApply.run_cases settled worker ran with rfl | ⟨_, domain, -, -, holds, sound, -⟩
      · exact settled
      · exact settled.holds holds sound
  | true =>
      cases change with
      | deleteDomain application now =>
          rcases deleteDomain_cases settled ran with rfl | ⟨before, member, -, live, holds⟩
          · exact settled
          · exact settled.holds holds ((settled.sound before member).tombstoned live now)
      | reissueClaim application claimId token now =>
          obtain ⟨before, member, -, live, fresh, holds⟩ := reissueClaim_cases settled ran
          exact settled.holds holds ((settled.sound before member).reissued live fresh _ _ now)

/-- Nobody writes to a domain that is gone. -/
theorem contender_idle (settled : db.Settled) (gone : db.Gone domainId) {index : Bool}
    {value : Unit}
    (ran : (contenders domainId worker change index).run db = (.ok value, after)) :
    after = db := by
  have dead : ∀ domain, domain ∈ db.domains → domain.id = domainId → domain.isLive = true →
      False := fun domain member key live => by
    rw [gone domain member key] at live
    cases live
  cases index with
  | false =>
      rcases WorkerApply.run_cases settled worker ran with same | ⟨before, _, loads, -⟩
      · exact same
      · exact (dead before loads.1 loads.2.1 loads.2.2.1).elim
  | true =>
      cases change with
      | deleteDomain application now =>
          rcases deleteDomain_cases settled ran with same | ⟨before, member, key, live, -⟩
          · exact same
          · exact (dead before member key live).elim
      | reissueClaim application claimId token now =>
          obtain ⟨before, member, key, live, -⟩ := reissueClaim_cases settled ran
          exact (dead before member key live).elim

/-- The events added since `base`, closed by a deletion if there is one. -/
structure Recorded (base : Database) (domainId : Uuid) (db : Database) : Prop where
  settled : db.Settled
  events : ∃ added, db.events = base.events ++ added ∧ ClosedByDeletion added ∧
    (db.Gone domainId ∨ ∀ event ∈ added, NotDeletion event.payload)

/-- A transaction that records no deletion keeps the events closed. -/
theorem Recorded.ordinary (recorded : Recorded base domainId db) {α : Type} {program : Sql α}
    {value : α} (within : program.Within Ordinary NotLimitReached)
    (ran : program.run db = (.ok value, after)) (settled : after.Settled)
    (idle : db.Gone domainId → after = db) : Recorded base domainId after := by
  obtain ⟨added, events, closed, gone | open_⟩ := recorded.events
  · rw [idle gone]
    exact recorded
  · obtain ⟨more, logs, events'⟩ := added_of_within within ran
    have all : ∀ event ∈ added ++ more, NotDeletion event.payload := fun event member =>
      (List.mem_append.mp member).elim (open_ event) (logs event)
    exact ⟨settled, added ++ more, by rw [events', events, List.append_assoc],
      closedByDeletion_of_open all, .inr all⟩

theorem Recorded.step {index : Bool} {value : Unit} (recorded : Recorded base domainId db)
    (ran : (contenders domainId worker change index).run db = (.ok value, after)) :
    Recorded base domainId after := by
  have settled := contender_settled recorded.settled ran
  have idle : db.Gone domainId → after = db := fun gone =>
    contender_idle recorded.settled gone ran
  cases index with
  | false =>
      exact recorded.ordinary (worker.program_within domainId) ran settled idle
  | true =>
      cases change with
      | reissueClaim application claimId token now =>
          have within : (ClaimChange.program domainId
              (.reissueClaim application claimId token now)).Within Ordinary NotLimitReached :=
            Program.Within.bind (reissueClaim_within application domainId claimId token now)
              fun _ => trivial
          exact recorded.ordinary within ran settled idle
      | deleteDomain application now =>
          rcases deleteDomain_cases recorded.settled ran with rfl | ⟨before, -, key, -, holds⟩
          · exact recorded
          · obtain ⟨added, events, closed, -⟩ := recorded.events
            have within : (ClaimChange.program domainId (.deleteDomain application now)).Within
                (RowWise Eq Domain.Thins fun payload => payload.isStatusChange = false)
                NotLimitReached :=
              Program.Within.bind (deleteDomain_within (fun _ => rfl) (fun _ _ => rfl)
                (fun _ _ => rfl) application domainId now) fun _ => trivial
            obtain ⟨more, quiet, events'⟩ := added_of_within within ran
            refine ⟨settled, added ++ more, by rw [events', events, List.append_assoc], ?_,
              .inl fun row member same => ?_⟩
            · exact List.pairwise_append.mpr ⟨closed, closedByDeletion_of_quiet quiet,
                fun _ _ later member _ => quiet later member⟩
            · have tombstone := holds.row_eq member
                ((same.trans key.symm).trans (before.tombstoned_alike now).id.symm)
              rw [tombstone]
              exact before.tombstoned_isLive now

/-- A worker keeps a status earned. -/
theorem worker_earned (settled : db.Settled) (earned : db.Earned domainId) {value : Unit}
    (ran : (contenders domainId worker change false).run db = (.ok value, after)) :
    after.Earned domainId := by
  rcases WorkerApply.run_cases settled worker ran with rfl | ⟨before, domain, loads, key, holds, -,
    keeps⟩
  · exact earned
  · exact holds.earned key (keeps (earned before loads.1 loads.2.1))

theorem reissue_earned (settled : db.Settled) {application : Application} {claimId : Uuid}
    {token : String} {now : Time} {value : Unit}
    (ran : (contenders domainId worker (.reissueClaim application claimId token now) true).run db =
      (.ok value, after)) : after.Earned domainId := by
  obtain ⟨before, member, key, live, -, holds⟩ := reissueClaim_cases settled ran
  have same := Domain.reissued_id (settled.sound before member) live claimId token
    application.cnameTarget now
  exact holds.earned (same.trans key) (before.reissued_claimEarned _ _ _ now)

/-- Once a re-issue has committed, the domain's status is earned. -/
theorem earned_of_reissued {application : Application} {claimId : Uuid} {token : String}
    {now : Time} {order : List Bool} (settled : db.Settled)
    (runs : RunsSerially (contenders domainId worker (.reissueClaim application claimId token now))
      db order after) (reissued : true ∈ order) : after.Earned domainId := by
  induction order generalizing db with
  | nil => cases reissued
  | cons index order ih =>
      obtain ⟨value, middle, ran, rest⟩ := runs
      have settled' := contender_settled settled ran
      cases index with
      | false => exact ih settled' rest (by simpa using reissued)
      | true =>
          have kept := rest.keeps (fun db => db.Settled ∧ db.Earned domainId)
            ⟨settled', reissue_earned settled ran⟩ fun index db value after both ran =>
              ⟨contender_settled both.1 ran, by
                cases index with
                | false => exact worker_earned both.1 both.2 ran
                | true => exact reissue_earned both.1 ran⟩
          exact kept.2

end Serial

/-- In every run in which neither the worker nor the other transaction takes its
first read of the domain while the other one is between its first read and its
end, what is committed is what the committed transactions leave one after the
other.  So a tombstone stays one, no status change follows a deletion, a domain
that is gone is not written to, and a re-issued domain is ready or provisioning
only on a verified claim. -/
theorem worker_serializable {db : Database} {domainId : Uuid} {worker : WorkerApply}
    {change : ClaimChange} {state : State store Bool Unit} (settled : db.Settled)
    (reaches : ReflTransGen (State.GuardedStep (State.ReadsApart blindStatements))
      (State.start db (contenders domainId worker change)) state) :
    (∃ order : List Bool, order.Nodup ∧
      (∀ index, index ∈ order ↔ (state.session index).status = .committed) ∧
      RunsSerially (contenders domainId worker change) db order state.committed) ∧
    (∀ domain ∈ state.committed.domains, domain.isLive = false →
      domain.status = .deleting ∧ domain.liveClaims = []) ∧
    (∃ added, state.committed.events = db.events ++ added ∧ ClosedByDeletion added) ∧
    (db.Gone domainId → state.committed = db) ∧
    ∀ application claimId token now, change = .reissueClaim application claimId token now →
      (state.session true).status = .committed → state.committed.Earned domainId := by
  obtain ⟨order, nodup, members, runs⟩ :=
    State.serial_of_reaches (contenders_blind domainId worker change) reaches
  have start : Recorded db domainId db :=
    ⟨settled, [], (List.append_nil _).symm, List.Pairwise.nil, .inr (by simp)⟩
  have recorded : Recorded db domainId state.committed :=
    runs.keeps (Recorded db domainId) start
      fun index stored value after recorded ran => recorded.step ran
  refine ⟨⟨order, nodup, members, runs⟩, ?_, ?_, ?_, ?_⟩
  · exact fun domain member => (recorded.settled.sound domain member).deleted
  · obtain ⟨added, events, closed, -⟩ := recorded.events
    exact ⟨added, events, closed⟩
  · intro gone
    refine runs.keeps (fun stored => stored = db) rfl
      fun index stored value after same ran => ?_
    rw [same] at ran
    exact contender_idle settled gone ran
  · rintro application claimId token now rfl committed
    exact earned_of_reissued settled runs ((members true).mpr committed)

/-- One registered domain, its claim still pending. -/
def registeredRows : Database :=
  (claimDomain sampleEnvironment sampleApplication "forms.example.com" "workspace"
    ⟨2, 3, "token"⟩ 0).transact { applications := [sampleApplication] }

theorem registeredRows_settled : registeredRows.Settled := by
  have rows : registeredRows.domains = [(newDomain sampleEnvironment sampleApplication
      "forms.example.com" "workspace" 2 0).registered 3 "token" "edge.example.net" 0] := by
    decide +kernel
  constructor
  · rw [Database.Keyed, rows]
    exact List.nodup_singleton _
  · intro domain member
    rw [rows, List.mem_singleton] at member
    rw [member]
    exact Domain.registered_sound rfl (by decide) _ _ _ _

/-- Both DNS checks passed for the claim of `registeredRows`. -/
def sampleWorker : WorkerApply :=
  .dns 1
    { queried := some (3, "token", "edge.example.net")
      ownership := passingOutcome
      routing := passingOutcome
      statusBefore := .pendingDns
      edgeDue := true } 10

def workerRace : State store Bool Unit :=
  State.start registeredRows (contenders 2 sampleWorker (.deleteDomain sampleApplication 11))

/-- The worker commits, then the deletion runs. -/
def workerFirst : State store Bool Unit :=
  workerRace.follow (List.replicate 17 false ++ List.replicate 11 true)

theorem worker_serializable_workerFirst :
    (workerFirst.session false).status = .committed ∧
      (workerFirst.session true).status = .committed ∧
      ∀ domain ∈ workerFirst.committed.domains, domain.isLive = false →
        domain.status = .deleting ∧ domain.liveClaims = [] := by
  have guarded : ReflTransGen (State.GuardedStep (State.ReadsApart blindStatements)) workerRace
      workerFirst := State.CanFollow.guarded (by decide +kernel)
  exact ⟨by decide +kernel, by decide +kernel,
    (worker_serializable registeredRows_settled guarded).2.1⟩

/-- The deletion runs between the worker's load and its first write: the
tombstone ends up provisioning, on a verified claim. -/
theorem tombstone_overwritten :
    ∃ state, ReflTransGen State.Step workerRace state ∧
      ∃ domain ∈ state.committed.domains, domain.isLive = false ∧
        domain.status = .provisioning ∧ domain.liveClaims ≠ [] := by
  refine ⟨workerRace.follow (List.replicate 4 false ++ List.replicate 11 true ++
    List.replicate 13 false), State.GuardedStep.reaches (State.CanFollow.guarded
      (show State.CanFollow (fun _ _ => True) workerRace _ by decide +kernel)), ?_⟩
  decide +kernel

end CustomDomain
