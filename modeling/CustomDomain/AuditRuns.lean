import CustomDomain.EventStatements
import CustomDomain.TransactionRely

/-!
# The audit trail over runs of the service

Every operation of the service is a sequence of audited steps: nothing is
recorded and no domain changes, one domain moves on as its new events tell, or a
domain is registered with the events that create it.  From the steps, the trail
of every stored domain replays to what is stored of it, in every reachable
state.
-/

namespace CustomDomain

open Transaction EventHistory

/-- One step of a transaction, as the audit trail sees it. -/
inductive AuditStep (decided : Prop) (now : Time) (db : Database) : Database → Prop
  | quiet {after : Database} (same : db.SameLog after) (domains : after.domains = db.domains) :
      AuditStep decided now db after
  | told {domain next : Domain} {after : Database} (member : domain ∈ db.domains)
      (told : Told decided now db domain next after) (holds : Holds db next after) :
      AuditStep decided now db after
  | registered {next : Domain} {after : Database} {hostname reference : String}
      {payloads : List EventPayload} (adds : Adds db next after)
      (unused : db.domain? next.id = none)
      (logs : Logs next.id next.applicationId now db
        (.domainCreated hostname reference :: payloads) after)
      (history : Snapshot.initial.History payloads)
      (ends : payloads.foldl Snapshot.after Snapshot.initial = next.snapshot)
      (streak : decided → payloads.foldl (streakAfter now) none = next.failingSince) :
      AuditStep decided now db after

/-- Any number of steps. -/
abbrev AuditSteps (decided : Prop) (now : Time) : Database → Database → Prop :=
  Relation.ReflTransGen (AuditStep decided now)

/-! ## Operations that record nothing -/

/-- The change leaves the log and the domains alone. -/
def Silent (change : Database → Database) : Prop :=
  ∀ db, db.SameLog (change db) ∧ (change db).domains = db.domains

theorem Program.Within.audit {α : Type} {program : Sql α} {decided : Prop} {now : Time}
    {db : Database} (within : program.Within Silent fun _ => True) :
    program.Ensures db fun _ after => AuditSteps decided now db after := by
  have kept := within.spec (fun after => db.SameLog after ∧ after.domains = db.domains)
    (fun made middle silent kept =>
      ⟨kept.1.trans (silent middle).1, (silent middle).2.trans kept.2⟩)
    (⟨.refl db, rfl⟩ : db.SameLog db ∧ db.domains = db.domains)
  exact kept.mono (fun _ _ same => .single (.quiet same.1 same.2)) fun _ _ _ => trivial

section Silent

theorem flushApplication_silent (before after : Application) :
    (flushApplication before after).Within Silent fun _ => True := by
  refine fun view => ⟨fun _ => ⟨⟨rfl, rfl, rfl⟩, rfl⟩, ?_⟩
  dsimp only
  split_ifs <;> exact trivial

theorem flushOrigin_silent (before after : VerifiedOrigin) :
    (flushOrigin before after).Within Silent fun _ => True := by
  unfold flushOrigin
  split
  next => exact trivial
  next =>
    refine fun view => ⟨fun _ => ⟨⟨rfl, rfl, rfl⟩, rfl⟩, ?_⟩
    dsimp only
    split_ifs <;> exact trivial

theorem require_silent {condition : Prop} {decision : Decidable condition}
    (error : ServiceError) :
    (Program.require condition error : Sql Unit).Within Silent fun _ => True :=
  .require trivial

theorem createApplication_silent (environment : Environment) (slug name cnameTarget : String)
    (id : Uuid) :
    (createApplication environment slug name cnameTarget id).Within Silent fun _ => True := by
  unfold createApplication
  refine (require_silent _).bind fun _ => (require_silent _).bind fun _ => ?_
  split
  next => exact trivial
  next target accepted =>
    refine Program.Within.bind (fun view => ⟨fun db => ?_, trivial⟩) fun inserted =>
      (require_silent _).bind fun _ => trivial
    dsimp only
    split_ifs
    · exact ⟨.refl db, rfl⟩
    · exact ⟨⟨rfl, rfl, rfl⟩, rfl⟩

theorem getApplication_silent (id : Uuid) :
    (getApplication id).Within Silent fun _ => True := by
  unfold getApplication
  refine Program.Within.bind (fun _ => trivial) fun found => ?_
  cases found with
  | none => exact trivial
  | some application =>
      dsimp only
      split_ifs <;> exact trivial

theorem withApplication_silent {α : Type} (id : Uuid) {body : Application → Sql α}
    (silent : ∀ application, (body application).Within Silent fun _ => True) :
    (withApplication id body).Within Silent fun _ => True :=
  (getApplication_silent id).bind fun application => (silent application).bind fun _ => trivial

theorem renameApplication_silent (application : Application) (name : String) :
    (renameApplication application name).Within Silent fun _ => True := by
  unfold renameApplication
  generalize (PythonText.strip name).length = length
  refine (require_silent _).bind fun _ => (require_silent _).bind fun _ => ?_
  exact (flushApplication_silent _ _).bind fun _ => trivial

theorem requireRate_silent (name : String) (rate : Option Int) :
    (requireRate name rate).Within Silent fun _ => True := by
  cases rate with
  | none => exact trivial
  | some value => exact require_silent _

theorem setRateLimits_silent (application : Application) (perMinute perSecond : Option Int) :
    (setRateLimits application perMinute perSecond).Within Silent fun _ => True := by
  unfold setRateLimits
  refine (requireRate_silent _ _).bind fun _ => (requireRate_silent _ _).bind fun _ => ?_
  exact (flushApplication_silent _ _).bind fun _ => trivial

theorem setDomainLimit_silent (application : Application) (maxDomains : Option Int) :
    (setDomainLimit application maxDomains).Within Silent fun _ => True := by
  unfold setDomainLimit
  exact (require_silent _).bind fun _ => (flushApplication_silent _ _).bind fun _ => trivial

theorem setApplicationStatus_silent (application : Application) (status : ApplicationStatus) :
    (setApplicationStatus application status).Within Silent fun _ => True := by
  unfold setApplicationStatus
  split_ifs
  · exact trivial
  · exact (flushApplication_silent _ _).bind fun _ => trivial

theorem setWorkspaceProbe_silent (application : Application) (enabled : Bool) :
    (setWorkspaceProbe application enabled).Within Silent fun _ => True := by
  unfold setWorkspaceProbe
  split_ifs
  · exact trivial
  · exact (flushApplication_silent _ _).bind fun _ => trivial

theorem setCnameTarget_silent (environment : Environment) (application : Application)
    (cnameTarget : String) :
    (setCnameTarget environment application cnameTarget).Within Silent fun _ => True := by
  unfold setCnameTarget
  split
  next => exact trivial
  next => exact (flushApplication_silent _ _).bind fun _ => trivial

theorem insertOrigin_silent (origin : VerifiedOrigin) :
    (insertOrigin origin).Within Silent fun _ => True := by
  refine fun view => ⟨fun db => ?_, trivial⟩
  dsimp only
  split_ifs
  · exact ⟨.refl db, rfl⟩
  · exact ⟨⟨rfl, rfl, rfl⟩, rfl⟩

theorem withOrigin_silent {α : Type} (application origin : Uuid) {body : VerifiedOrigin → Sql α}
    (silent : ∀ origin, (body origin).Within Silent fun _ => True) :
    (withOrigin application origin body).Within Silent fun _ => True := by
  refine withApplication_silent application fun application => ?_
  refine Program.Within.bind ?_ silent
  refine Program.Within.bind (fun _ => trivial) fun found => ?_
  cases found with
  | none => exact trivial
  | some origin => exact trivial

theorem setOriginHostHeader_silent (origin : VerifiedOrigin) (hostHeader : String) :
    (setOriginHostHeader origin hostHeader).Within Silent fun _ => True := by
  unfold setOriginHostHeader
  split
  next => exact trivial
  next => exact (flushOrigin_silent _ _).bind fun _ => trivial

theorem activateOrigin_silent (origin : VerifiedOrigin) :
    (activateOrigin origin).Within Silent fun _ => True := by
  unfold activateOrigin
  refine (require_silent _).bind fun _ => ?_
  refine Program.Within.bind (fun _ => trivial) fun others => ?_
  refine Program.Within.bind (Program.Within.foldEach fun _ other =>
    flushOrigin_silent _ _) fun _ => ?_
  exact (flushOrigin_silent _ _).bind fun _ => trivial

theorem storeOrigin_silent (origin next : VerifiedOrigin) :
    (do
      flushOrigin origin next
      pure next : Sql VerifiedOrigin).Within Silent fun _ => True :=
  (flushOrigin_silent origin next).bind fun _ => trivial

theorem deleteOrigin_silent (origin : VerifiedOrigin) :
    (deleteOrigin origin).Within Silent fun _ => True := by
  unfold deleteOrigin
  exact (require_silent _).bind fun _ _ => ⟨fun _ => ⟨⟨rfl, rfl, rfl⟩, rfl⟩, trivial⟩

theorem revokeCredentialRow_silent (credential : ApiCredential) (now : Time) :
    (revokeCredentialRow credential now).Within Silent fun _ => True := by
  unfold revokeCredentialRow
  split
  next => exact trivial
  next => exact fun _ => ⟨fun _ => ⟨⟨rfl, rfl, rfl⟩, rfl⟩, trivial⟩

/-- An operation on a loaded application that records nothing. -/
theorem withApplication_quiet {α : Type} {id : Uuid} {body : Application → Sql α}
    {decided : Prop} {now : Time} {db : Database}
    (silent : ∀ application, (body application).Within Silent fun _ => True) :
    (withApplication id body).Ensures db fun _ after => AuditSteps decided now db after :=
  Program.Within.audit (withApplication_silent id silent)

/-- An operation on a loaded origin that records nothing. -/
theorem withOrigin_quiet {α : Type} {application origin : Uuid} {body : VerifiedOrigin → Sql α}
    {decided : Prop} {now : Time} {db : Database}
    (silent : ∀ origin, (body origin).Within Silent fun _ => True) :
    (withOrigin application origin body).Ensures db fun _ after =>
      AuditSteps decided now db after :=
  Program.Within.audit (withOrigin_silent application origin silent)

theorem registerOrigin_quiet (environment : Environment) (application : Application)
    (host scheme : String) (port : Option Int) (hostHeader : String) (fresh : FreshOrigin)
    {decided : Prop} {now : Time} {db : Database} :
    (registerOrigin environment application host scheme port hostHeader fresh).Ensures db
      fun _ after => AuditSteps decided now db after := by
  unfold registerOrigin
  split
  next => exact .of_raise trivial
  split
  next => exact .of_raise trivial
  split
  next => exact .of_raise trivial
  refine .requireThen (fun _ => ?_) fun _ => trivial
  apply (Program.Within.audit (insertOrigin_silent _)).bind
  intro inserted after steps
  exact .requireThen (fun _ => .of_pure steps) fun _ => trivial

end Silent

/-! ## Operations on domains -/

section Domains

variable {decided : Prop} {now : Time} {db : Database} {domain : Domain}

theorem transitionStatus_checks (status : DomainStatus) (reason : Option String) :
    (transitionStatus domain status reason now).Ensures db fun value _ =>
      value.checks = domain.checks := by
  unfold transitionStatus
  split
  next => exact .of_raise trivial
  next =>
    split
    next => exact .of_pure rfl
    next =>
      apply (flushDomain_quiet db _ _).bind
      intro _ middle _
      apply (recordEvent_ensures _ _ _ middle).bind
      intro _ _ _
      exact .of_pure rfl

theorem recordCheck_failingSince (checkType : CheckType) (observation : Observation) :
    (recordCheck domain checkType observation).Ensures db fun value _ =>
      value.failingSince = (domain.withCheck checkType observation).failingSince := by
  unfold recordCheck
  apply (storeCheck_quiet checkType observation).bind
  rintro _ middle ⟨rfl, -⟩
  apply (recordEvent_ensures _ _ _ middle).bind
  rintro _ after rfl
  split
  next =>
    apply (transitionStatus_checks _ _).weaken
    intro value _ same
    unfold Domain.failingSince Domain.check
    rw [same]
  next => exact .of_pure rfl

/-- The checks are reset, and with them the streak. -/
theorem resetChecks_recorded (decided : Prop) (now : Time) (db : Database)
    (open_ : domain.status ≠ .deleting) :
    (Program.foldEach CheckType.all domain fun domain checkType =>
      recordCheck domain checkType (Domain.resetObservation now)).Ensures db fun value after =>
        Tells decided now db domain value after ∧ value.failingSince = none := by
  have round : ∀ (domain : Domain) (db : Database) (checkType : CheckType),
      domain.status ≠ .deleting → checkType = .ownership ∨ domain.failingSince = none →
      (recordCheck domain checkType (Domain.resetObservation now)).Ensures db fun value after =>
        Tells decided now db domain value after ∧ value.failingSince = none := by
    intro domain db checkType open_ calm
    have recorded : (recordCheck domain checkType (Domain.resetObservation now)).Ensures db
        (Tells decided now db domain) := recordCheck_recorded open_ checkType rfl fun _ _ => rfl
    apply (recorded.and (recordCheck_failingSince checkType _)).mono
    · rintro value after ⟨recorded, same⟩
      refine ⟨recorded, same.trans ?_⟩
      rw [Domain.failingSince, Domain.withCheck_check]
      split
      next => rfl
      next other =>
        rcases calm with owns | calm
        · exact absurd owns.symm other
        · exact calm
    · exact fun _ _ _ => trivial
  unfold CheckType.all
  apply (round domain db .ownership open_ (.inl rfl)).bind
  rintro value middle ⟨first, calm⟩
  refine Program.Spec.foldEach (W := store)
    (fun value after => Tells decided now db domain value after ∧ value.failingSince = none)
    ⟨first, calm⟩ ?_
  rintro value checkType middle _ ⟨first, calm⟩
  apply (round value middle checkType first.2 (.inr calm)).weaken
  rintro value after ⟨second, calm⟩
  exact ⟨first.trans second, calm⟩

/-- What is stored, and what the events tell of it. -/
def Audits (decided : Prop) (now : Time) (base db : Database) (before next value : Domain)
    (after : Database) : Prop :=
  Becomes base next value after ∧ Tells decided now db before value after

theorem refresh_reads (domain : Domain) (db : Database) :
    (refresh domain).Ensures db fun _ after => after = db := by
  unfold refresh
  apply ((selectDomain_reads _ db).mono (fun _ _ same => same) fun _ _ never => never.elim).bind
  rintro found after rfl
  cases found with
  | none => exact .of_raise trivial
  | some loaded => exact .of_pure rfl

/-- A claim goes in only under an identifier that no stored claim has. -/
theorem issueClaim_audits {base : Database} (holds : Holds base domain db)
    (open_ : domain.status ≠ .deleting) (claimId : Uuid) (token cnameTarget : String)
    (calm : decided → domain.failingSince = none) :
    (issueClaim domain claimId token cnameTarget now).Ensures db
      (Audits decided now base db domain
        (domain.addClaim (domain.newClaim claimId token cnameTarget now))) := by
  have stored := issueClaim_spec holds claimId token cnameTarget now
  by_cases fresh : claimId ∈ domain.claims.map (·.id)
  · apply stored.mono
    · rintro value after ⟨-, unseen⟩
      obtain ⟨claim, member, same⟩ := List.mem_map.mp fresh
      exact absurd same (unseen domain holds.mem claim member).1
    · exact fun _ _ _ => trivial
  · have recorded : (issueClaim domain claimId token cnameTarget now).Ensures db
        (Tells decided now db domain) := issueClaim_recorded open_ fresh token cnameTarget calm
    apply (stored.and recorded).mono
    · rintro value after ⟨⟨becomes, -⟩, recorded⟩
      exact ⟨becomes, recorded⟩
    · exact fun _ _ _ => trivial

theorem Domain.buried_revocation (domain : Domain) (reason : String) :
    (domain.buried now).revocation reason = domain.revocation reason := rfl

/-- A tombstone is the revoked domain with another status. -/
theorem Domain.tombstoned_snapshot (domain : Domain) (now : Time) :
    (domain.tombstoned now).snapshot =
      (domain.revoked now).snapshot.after (.domainDeleted domain.hostname now) := by
  unfold tombstoned revoked changeClaim
  rw [show (domain.buried now).activeClaim = domain.activeClaim from rfl]
  cases domain.activeClaim with
  | none => rfl
  | some before => rfl

section Stored

variable {environment : Environment} (consistent : db.Consistent environment)

include consistent

theorem reissueClaim_audit (application : Application) (domainId claimId : Uuid)
    (token : String) :
    (reissueClaim application domainId claimId token now).Ensures db fun _ after =>
      AuditSteps decided now db after := by
  unfold reissueClaim
  apply ((getDomain_spec application domainId false db).mono (fun _ _ post => post)
    fun _ _ _ => trivial).bind
  rintro domain after ⟨rfl, member, rfl, -, excluded | live⟩
  · cases excluded
  have sound := consistent.sound domain member
  have open_ := (sound.live live).1
  have holds := Holds.self consistent.keyed member
  have revokes : (revokeLiveClaim domain "reissued" now).Ensures after
      (Tells decided now after domain) := revokeLiveClaim_recorded open_ sound.distinct _
  apply (((revokeLiveClaim_spec holds "reissued" now).and revokes).mono (fun _ _ post => post)
    fun _ _ _ => trivial).bind
  rintro _ revoked ⟨⟨rfl, holds⟩, first⟩
  have live' : (domain.revoked now).isLive = true := by
    rw [Domain.revoked, Domain.changeClaim_isLive, live]
  apply (((resetChecks_spec holds live' now CheckType.all).and
    (resetChecks_recorded decided now revoked first.2)).mono (fun _ _ post => post)
    fun _ _ _ => trivial).bind
  rintro _ cleared ⟨⟨rfl, holds⟩, second, calm⟩
  have complete : (domain.revoked now).Complete := by
    rw [Domain.Complete, Domain.revoked, Domain.changeClaim_checks]
    exact sound.complete
  have clearedLive := (Domain.resetChecks_facts CheckType.all now _ complete).1.isLive
  rw [live'] at clearedLive
  have leaves : (leaveStatus _ now).Ensures cleared (Tells decided now cleared _) :=
    leaveStatus_recorded second.2
  apply (((leaveStatus_spec holds clearedLive now).and leaves).mono (fun _ _ post => post)
    fun _ _ _ => trivial).bind
  rintro value left ⟨⟨shape, holds⟩, third⟩
  have sameChecks : value.failingSince = none := by
    rw [shape, ← calm]
    split
    next => rfl
    next => rfl
  rw [← shape] at holds
  apply (issueClaim_audits holds third.2 claimId token application.cnameTarget
    fun _ => sameChecks).bind
  rintro _ issued ⟨⟨rfl, stored⟩, fourth⟩
  apply (refresh_reads _ issued).weaken
  rintro _ last rfl
  exact .single (.told member (((first.trans second).trans third).trans fourth).1 stored)

/-- A deletion records the end of the claim, then that of the domain. -/
theorem deleteDomain_audit (application : Application) (domainId : Uuid) :
    (deleteDomain application domainId now).Ensures db fun _ after =>
      AuditSteps decided now db after := by
  unfold deleteDomain
  apply ((getDomain_spec application domainId true db).mono (fun _ _ post => post)
    fun _ _ _ => trivial).bind
  rintro domain after ⟨rfl, member, rfl, -, -⟩
  split
  next => exact .of_pure .refl
  next live =>
    have live : domain.isLive = true := by simpa [Domain.isLive] using live
    have sound := consistent.sound domain member
    have open_ := (sound.live live).1
    have flushed : (flushDomain domain (domain.buried now)).Returns after fun _ last =>
        Holds after (domain.buried now) last :=
      flushDomain_spec (Holds.self consistent.keyed member) rfl
        (by simp [Domain.patch, Domain.buried])
    apply ((flushed.and (flushDomain_quiet after domain (domain.buried now))).mono
      (fun _ _ post => post) fun _ _ _ => trivial).bind
    rintro _ middle ⟨holds, same⟩
    apply (((revokeLiveClaim_spec holds "deleted" now).and (revokeLiveClaim_logs "deleted")).mono
      (fun _ _ post => post) fun _ _ _ => trivial).bind
    rintro _ revoked ⟨⟨rfl, holds⟩, -, logs⟩
    have kept := recordEvent_holds holds ((domain.buried now).revoked now)
      (.domainDeleted ((domain.buried now).revoked now).hostname (now + tombstoneRetention)) now
    apply ((kept.and (recordEvent_ensures _ _ _ revoked)).mono (fun _ _ post => post)
      fun _ _ _ => trivial).bind
    rintro _ last ⟨holds, rfl⟩
    have alike := domain.tombstoned_alike now
    refine .of_pure (.single (.told member ⟨alike.id, alike.applicationId, _,
      (Logs.after_quiet same logs).trans (.single alike.id alike.applicationId (.refl _) _),
      ?_, ?_, fun _ => ?_⟩ holds))
    · apply (revocation_history open_ _).append
      refine ⟨?_, trivial⟩
      rw [domain.buried_revocation, Domain.revoked_snapshot sound.distinct _ now]
      exact (domain.changeClaim_status _).trans_ne open_
    · rw [List.foldl_append, domain.buried_revocation, Domain.revoked_snapshot sound.distinct _ now]
      exact (domain.tombstoned_snapshot now).symm
    · rw [List.foldl_append, revocation_streak]
      exact ((domain.buried now).revoked_failingSince now).symm

theorem requestRecheck_audit (application : Application) (domainId : Uuid)
    (requestedBy : String) :
    (requestRecheck application domainId requestedBy now).Ensures db fun _ after =>
      AuditSteps decided now db after := by
  unfold requestRecheck lockApplication
  apply Program.Spec.of_write
  apply ((getDomain_spec application domainId true db).mono (fun _ _ post => post)
    fun _ _ _ => trivial).bind
  rintro domain after ⟨rfl, member, rfl, -, -⟩
  apply Program.Spec.requireThen
  · intro open_
    apply ((enforceRecheckLimits_spec domain now after).mono (fun _ _ post => post)
      fun _ _ _ => trivial).bind
    rintro _ limited rfl
    have holds := Holds.self consistent.keyed member
    have recorded : (Program.foldEach domain.checks domain fun domain check =>
        scheduleCheck domain check now).Ensures limited (Tells decided now limited domain) :=
      foldEach_recorded _ open_.2 fun domain db check open_ => scheduleCheck_recorded open_ check now
    apply (((scheduleChecks_spec holds now domain.checks).and recorded).mono
      (fun _ _ post => post) fun _ _ _ => trivial).bind
    rintro _ scheduled ⟨⟨rfl, holds⟩, first⟩
    apply (((recordEvent_holds holds _ _ _).and (recordEvent_ensures _ _ _ scheduled)).mono
      (fun _ _ post => post) fun _ _ _ => trivial).bind
    rintro _ last ⟨holds, rfl⟩
    refine .of_pure (.single (.told member (first.1.trans ?_) holds))
    exact .event (.refl _) rfl rfl rfl rfl first.2 rfl fun _ => rfl
  · exact fun _ => trivial

omit consistent in
theorem startConnect_recorded (open_ : domain.status ≠ .deleting) (at_ : Time) :
    (startConnect domain at_ now).Ensures db (Tells decided now db domain) := by
  unfold startConnect
  apply (flushDomain_quiet db _ _).bind
  intro _ middle same
  have first : Tells decided now db domain
      { domain with connectStartedAt := some now, updatedAt := now } middle :=
    ⟨.quiet same rfl rfl rfl rfl, open_⟩
  unfold makeChecksDue
  apply (foldEach_recorded _ first.2 ?_).weaken
  · exact fun _ _ second => first.trans second
  · intro domain db check open_
    split
    next => exact scheduleCheck_recorded open_ check at_
    next => exact .of_pure ⟨.refl domain db, open_⟩

theorem recordConnect_audit (application : Application) (plan : ConnectPlan) :
    (recordConnect application plan now).Ensures db fun _ after =>
      AuditSteps decided now db after := by
  unfold recordConnect lockApplication
  apply Program.Spec.of_write
  apply ((getDomain_spec application plan.domainId false db).mono (fun _ _ post => post)
    fun _ _ _ => trivial).bind
  rintro domain after ⟨rfl, member, -, -, excluded | live⟩
  · cases excluded
  have open_ := ((consistent.sound domain member).live live).1
  apply Program.Spec.requireThen
  · intro _
    have holds := Holds.self consistent.keyed member
    have starts : (startConnect domain (now + fastRecheckInterval) now).Ensures after
        (Tells decided now after domain) := startConnect_recorded open_ _
    apply (((startConnect_spec holds _ now).and starts).mono (fun _ _ post => post)
      fun _ _ _ => trivial).bind
    rintro _ started ⟨⟨rfl, holds⟩, first⟩
    apply (((recordEvent_holds holds _ _ _).and (recordEvent_ensures _ _ _ started)).mono
      (fun _ _ post => post) fun _ _ _ => trivial).bind
    rintro _ last ⟨holds, rfl⟩
    refine .of_pure (.single (.told member (first.1.trans ?_) holds))
    exact .event (.refl _) rfl rfl rfl rfl first.2 rfl fun _ => rfl
  · exact fun _ => trivial

theorem connectReturned_audit (domainId applicationId : Uuid) :
    (connectReturned domainId applicationId now).Ensures db fun _ after =>
      AuditSteps decided now db after := by
  unfold connectReturned lockApplication
  apply Program.Spec.of_write
  have stored : ∀ domain, (db.domain? domainId).filter (·.isLive) = some domain →
      db.domain? domain.id = some domain := by
    intro domain found
    rw [Option.filter_eq_some_iff] at found
    rw [(Database.domain?_id found.1).1]
    exact found.1
  apply ((selectDomain_spec stored).mono (fun _ _ post => post) fun _ _ never => never.elim).bind
  rintro _ after ⟨rfl, rfl⟩
  cases row : (after.domain? domainId).filter (·.isLive) with
  | none => exact .of_pure .refl
  | some domain =>
      rw [Option.filter_eq_some_iff] at row
      obtain ⟨-, member⟩ := Database.domain?_id row.1
      have open_ := ((consistent.sound domain member).live row.2).1
      dsimp only [Option.map_some]
      split
      next =>
        have starts : (startConnect domain now now).Ensures after
            (Tells decided now after domain) := startConnect_recorded open_ _
        apply (((startConnect_spec (Holds.self consistent.keyed member) now now).and starts).mono
          (fun _ _ post => post) fun _ _ _ => trivial).bind
        rintro _ started ⟨⟨rfl, holds⟩, first⟩
        exact .of_pure (.single (.told member first.1 holds))
      next => exact .of_pure .refl

theorem applyDnsOutcomes_audit (member : domain ∈ db.domains) (live : domain.isLive = true)
    {ownership : Outcome} (routing : Outcome) (settled : decided → ownership.status ≠ .pending) :
    (applyDnsOutcomes domain ownership routing now).Ensures db fun _ after =>
      AuditSteps decided now db after := by
  have sound := consistent.sound domain member
  have recorded : (applyDnsOutcomes domain ownership routing now).Ensures db
      (Tells decided now db domain) :=
    applyDnsOutcomes_recorded (sound.live live).1 sound.distinct routing settled
  apply ((applyDnsOutcomes_spec (Holds.self consistent.keyed member) sound live ownership routing
    now).and recorded).mono
  · rintro _ after ⟨⟨rfl, holds⟩, recorded⟩
    exact .single (.told member recorded.1 holds)
  · exact fun _ _ _ => trivial

theorem applyEdgeOutcomes_audit (member : domain ∈ db.domains) (live : domain.isLive = true)
    (certificate origin : Outcome) :
    (applyEdgeOutcomes domain certificate origin now).Ensures db fun _ after =>
      AuditSteps decided now db after := by
  have sound := consistent.sound domain member
  have recorded : (applyEdgeOutcomes domain certificate origin now).Ensures db
      (Tells decided now db domain) :=
    applyEdgeOutcomes_recorded (sound.live live).1 certificate origin
  apply ((applyEdgeOutcomes_spec (Holds.self consistent.keyed member) sound live certificate
    origin now).and recorded).mono
  · rintro _ after ⟨⟨rfl, holds⟩, recorded⟩
    exact .single (.told member recorded.1 holds)
  · exact fun _ _ _ => trivial

end Stored

/-! ### Registrations -/

/-- The errors an import goes on after. -/
def ServiceError.skips : ServiceError → Bool
  | .domainLimitReached _ _ _ | .hostnameAlreadyClaimed _ => true
  | _ => false

/-- The errors an import ends with, whatever was written before them. -/
abbrev Ends {α : Type} (program : Sql α) : Prop :=
  program.Within (fun _ => True) fun error : ServiceError => error.skips = false

theorem insertCheck_ends (domainId : Uuid) (check : DomainCheck) :
    Ends (insertCheck domainId check) := by
  intro view
  refine ⟨trivial, ?_⟩
  dsimp only
  split
  next => exact rfl
  next =>
    split
    next => exact rfl
    next => exact trivial

theorem recordEvent_ends (domain : Domain) (payload : EventPayload) (now : Time) :
    Ends (recordEvent domain payload now) := by
  refine fun view view' => ⟨trivial, ?_⟩
  unfold enqueueForEvent
  split
  next => exact trivial
  next =>
    intro view
    dsimp only
    split
    next => exact trivial
    next => exact fun _ => ⟨trivial, trivial⟩

theorem issueClaim_ends (domain : Domain) (claimId : Uuid) (token cnameTarget : String)
    (now : Time) : Ends (issueClaim domain claimId token cnameTarget now) := by
  unfold issueClaim
  refine Program.Within.bind ?_ fun _ => (recordEvent_ends _ _ _).bind fun _ => trivial
  refine fun view => ⟨trivial, ?_⟩
  dsimp only
  split_ifs
  · exact rfl
  · exact rfl
  · exact trivial
  · exact rfl

theorem refresh_ends (domain : Domain) : Ends (refresh domain) := by
  unfold refresh
  refine Program.Within.bind (fun view => ?_) fun found => ?_
  · dsimp only
    split
    next => exact trivial
    next => exact fun _ _ => trivial
  · cases found with
    | none => exact rfl
    | some loaded => exact trivial

/-- What a registration sends after the insert of its domain. -/
def finishRegistration (domain : Domain) (canonical : String) (fresh : Fresh)
    (cnameTarget : String) (now : Time) : Sql Domain := do
  let domain ← Program.foldEach CheckType.all domain fun domain checkType => do
    insertCheck domain.id { checkType := checkType }
    pure (domain.addCheck { checkType := checkType })
  recordEvent domain (.domainCreated canonical domain.reference) now
  let domain ← issueClaim domain fresh.claimId fresh.token cnameTarget now
  refresh domain

theorem finishRegistration_ends (domain : Domain) (canonical : String) (fresh : Fresh)
    (cnameTarget : String) (now : Time) :
    Ends (finishRegistration domain canonical fresh cnameTarget now) := by
  unfold finishRegistration
  refine Program.Within.bind (Program.Within.foldEach fun domain checkType =>
    (insertCheck_ends _ _).bind fun _ => trivial) fun domain => ?_
  refine (recordEvent_ends _ _ _).bind fun _ => ?_
  exact (issueClaim_ends _ _ _ _ _).bind fun domain => refresh_ends domain

theorem insertChecks_quiet (domain : Domain) (db : Database) :
    (Program.foldEach CheckType.all domain fun domain checkType => do
      insertCheck domain.id { checkType := checkType }
      pure (domain.addCheck { checkType := checkType })).Ensures db fun value after =>
        value.id = domain.id ∧ value.applicationId = domain.applicationId ∧ db.SameLog after := by
  refine Program.Spec.foldEach (W := store) (fun (value : Domain) middle =>
    value.id = domain.id ∧ value.applicationId = domain.applicationId ∧ db.SameLog middle)
    ⟨rfl, rfl, .refl db⟩ ?_
  rintro value checkType middle - ⟨id, owner, same⟩
  apply (insertCheck_quiet middle _ _).bind
  intro _ last quiet
  exact .of_pure ⟨id, owner, same.trans quiet⟩

theorem finishRegistration_logs (domain : Domain) (canonical : String) (fresh : Fresh)
    (cnameTarget : String) (now : Time) (db : Database) :
    (finishRegistration domain canonical fresh cnameTarget now).Ensures db fun _ after =>
      ∃ reference name, Logs domain.id domain.applicationId now db
        [.domainCreated canonical reference, .claimIssued fresh.claimId name] after := by
  unfold finishRegistration
  apply (insertChecks_quiet domain db).bind
  rintro value middle ⟨id, owner, same⟩
  apply (recordEvent_ensures _ _ _ middle).bind
  rintro _ created rfl
  unfold issueClaim
  simp only [bind_assoc]
  apply (insertClaim_quiet _ _ _).bind
  intro _ inserted quiet
  apply (recordEvent_ensures _ _ _ inserted).bind
  rintro _ issued rfl
  apply (refresh_reads _ _).weaken
  rintro _ last rfl
  exact ⟨_, _, .entry same id owner _ (.entry quiet id owner _ (.quiet (.refl _)))⟩

theorem claimDomain_logs (environment : Environment) (application : Application)
    (hostname reference : String) (fresh : Fresh) (now : Time) (db : Database) :
    (claimDomain environment application hostname reference fresh now).Spec db
      (fun _ after => ∃ canonical reference name, Logs fresh.domainId application.id now db
        [.domainCreated canonical reference, .claimIssued fresh.claimId name] after)
      fun error after => error.skips = true → db.SameLog after := by
  unfold claimDomain
  apply Program.Spec.requireThen
  · intro _
    apply Program.Spec.requireThen
    · intro _
      split
      next => exact .of_raise nofun
      next canonical accepted =>
        unfold lockApplication
        apply Program.Spec.of_write
        apply ((enforce_spec db environment application).mono (fun _ _ post => post) ?_).bind
        · rintro _ _ ⟨locks, rfl⟩
          apply ((enforceWindow_spec _ _ _ _ _ _).mono (fun _ _ post => post) ?_).bind
          · rintro _ _ rfl
            apply (insertDomain_spec _ _).andThen
            rintro conflict after ⟨-, stored⟩
            have same : db.SameLog after := by
              rw [stored]
              split
              next => exact ⟨rfl, rfl, rfl⟩
              next => exact ⟨rfl, rfl, rfl⟩
            cases conflict with
            | some conflict =>
                cases conflict with
                | hostname => exact .of_raise fun _ => same
                | other => exact .of_raise nofun
            | none =>
                apply ((finishRegistration_logs _ canonical fresh application.cnameTarget now
                  after).and ((finishRegistration_ends _ canonical fresh application.cnameTarget
                  now).raises after)).mono
                · rintro _ last ⟨⟨reference, name, logs⟩, -⟩
                  exact ⟨canonical, reference, name, logs.after_quiet same⟩
                · rintro error last ⟨-, ends⟩ skips
                  rw [ends] at skips
                  cases skips
          · rintro _ _ ⟨-, rfl⟩ _
            exact ⟨rfl, rfl, rfl⟩
        · rintro _ _ ⟨locks, rfl⟩ _
          exact ⟨rfl, rfl, rfl⟩
    · exact fun _ => nofun
  · exact fun _ => nofun

/-- A registration and the two events it records. -/
theorem Registration.audit {environment : Environment} {application : Application}
    {hostname reference : String} {fresh : Fresh} {after : Database}
    (registration : Registration environment application hostname reference fresh now db domain)
    (adds : Adds db domain after)
    (logs : ∃ canonical reference name, Logs fresh.domainId application.id now db
      [.domainCreated canonical reference, .claimIssued fresh.claimId name] after) :
    AuditStep decided now db after := by
  obtain ⟨canonical, stated, name, logs⟩ := logs
  have id : domain.id = fresh.domainId := by rw [registration.eq]; rfl
  have owner : domain.applicationId = application.id := by rw [registration.eq]; rfl
  rw [← id, ← owner] at logs
  refine .registered adds (id ▸ registration.unused) logs ⟨⟨nofun, by simp [Snapshot.initial]⟩,
    trivial⟩ ?_ fun _ => ?_
  · rw [registration.eq]
    refine Snapshot.ext rfl ?_ rfl
    funext checkType
    cases checkType <;> rfl
  · rw [registration.eq]
    rfl

theorem adoptDomain_recorded (open_ : domain.status ≠ .deleting)
    (distinct : (domain.claims.map (·.id)).Nodup) (upstream : Option String)
    (grandfather : Bool) :
    (adoptDomain domain upstream grandfather now).Ensures db (Tells decided now db domain) := by
  unfold adoptDomain
  apply (recordEvent_ensures _ _ _ db).bind
  rintro _ imported rfl
  have first : Tells decided now db domain domain
      (db.recorded domain (.domainImported upstream grandfather) now) :=
    ⟨.event (.refl _) rfl rfl rfl rfl open_ rfl fun _ => rfl, open_⟩
  split
  next =>
    have verifies : (markClaimVerified domain .legacyImport now).Ensures
        (db.recorded domain (.domainImported upstream grandfather) now) (Tells decided now _ domain) :=
      markClaimVerified_recorded open_ distinct .legacyImport
    apply verifies.bind
    intro verified middle second
    have streaks : ∀ since, Observation.Streaks
        { status := .passing
          details := some { fields := [("source", ["legacy_import"])] }
          observedAt := now } since := fun _ => rfl
    apply Program.Spec.bind (recordCheck_recorded second.2 .ownership rfl
      fun (_ : decided) _ => streaks _)
    intro checked last third
    apply (transitionStatus_recorded third.2 .provisioning _ nofun nofun nofun).weaken
    exact fun _ _ fourth => ((first.trans second).trans third).trans fourth
  next => exact .of_pure first

section Loops

variable {environment : Environment} (consistent : db.Consistent environment)

include consistent

theorem claimDomain_audit (application : Application) (hostname reference : String)
    (fresh : Fresh) :
    (claimDomain environment application hostname reference fresh now).Ensures db fun _ after =>
      AuditSteps decided now db after := by
  apply ((claimDomain_spec consistent.keyed environment application hostname reference fresh
    now).and (claimDomain_logs environment application hostname reference fresh now db)).mono
  · rintro domain after ⟨⟨registration, adds⟩, logs⟩
    exact .single (registration.audit adds logs)
  · exact fun _ _ _ => trivial

/-- How an attempt of the import ends, as the audit trail sees it. -/
theorem attemptClaim_audit (application : Application) (hostname reference : String)
    (fresh : Fresh) :
    (attemptClaim environment application hostname reference fresh now).Ensures db
      fun attempt after =>
        match attempt with
        | .registered domain =>
            Registration environment application hostname reference fresh now db domain ∧
              Adds db domain after ∧ AuditStep decided now db after
        | _ => AuditStep decided now db after := by
  unfold attemptClaim
  have claims := (claimDomain_spec consistent.keyed environment application hostname reference
    fresh now).and (claimDomain_logs environment application hostname reference fresh now db)
  have skipped := claims.mono (fun _ _ post => post) fun error after raised =>
    (show error.skips = true → AuditStep decided now db after from fun skips => by
      obtain ⟨refused, unlogged⟩ := raised
      rcases refused with ⟨constraint, rfl⟩ | same
      · cases skips
      · exact .quiet (unlogged skips) same.domains)
  apply Program.Spec.tryCatch (skipped.bind fun domain after claimed => ?_)
  · intro error after skipped
    split
    next => exact .of_pure (skipped rfl)
    next =>
      split_ifs
      · exact .of_pure (skipped rfl)
      · exact .of_raise trivial
    next => exact .of_raise trivial
  · refine .requireThen (fun _ => ?_) fun _ skips => by cases skips
    exact .of_pure ⟨claimed.1.1, claimed.1.2, claimed.1.1.audit claimed.1.2 claimed.2⟩

theorem importEntry_audit {application : Application} (member : application ∈ db.applications)
    (options : ImportOptions) (report : ImportReport) (entry : LegacyDomain) (fresh : Fresh) :
    (importEntry environment application options report entry fresh now).Ensures db
      fun _ after => AuditSteps decided now db after := by
  unfold importEntry
  split
  next => exact .of_pure .refl
  next hostname accepted =>
    split
    next => exact .of_pure .refl
    next reference found =>
      apply Program.Spec.bind (attemptClaim_audit consistent application hostname reference fresh)
      intro attempt after attempted
      cases attempt with
      | limitReached => exact .of_pure (.single attempted)
      | alreadyClaimed =>
          apply (findLiveByHostname_reads environment hostname after).bind
          rintro live last rfl
          cases live with
          | none => exact .of_pure (.single attempted)
          | some live =>
              simp only
              split_ifs
              · exact .of_pure (.single attempted)
              · exact .of_pure (.single attempted)
      | registered domain =>
          obtain ⟨registration, adds, step⟩ := attempted
          have consistent' := consistent.registered member registration false adds
          have stored : domain ∈ after.domains := by rw [adds.domains]; simp
          have live : domain.isLive = true := by rw [registration.eq]; rfl
          have new : domain.status = .pendingDns := by rw [registration.eq]; rfl
          have sound := consistent'.sound domain stored
          have recorded : (adoptDomain domain entry.upstream options.grandfather now).Ensures after
              (Tells decided now after domain) :=
            adoptDomain_recorded (sound.live live).1 sound.distinct _ _
          apply (((adoptDomain_spec (Holds.self consistent'.keyed stored) sound live new
            entry.upstream options.grandfather now).and recorded).mono (fun _ _ post => post)
            fun _ _ _ => trivial).bind
          rintro _ last ⟨⟨rfl, holds⟩, recorded⟩
          exact .of_pure (.tail (.single step) (.told stored recorded.1 holds))

theorem importLegacyDomains_audit {application : Application}
    (member : application ∈ db.applications) (options : ImportOptions)
    (entries : List LegacyDomain) (draw : Nat → Fresh) :
    (importLegacyDomains environment application options entries draw now).Ensures db
      fun _ after => AuditSteps decided now db after := by
  unfold importLegacyDomains
  apply (Program.Spec.foldEach (W := store) (fun _ after =>
    Progress environment (fun _ => True) db after ∧ AuditSteps decided now db after)
    ⟨.refl db, .refl⟩ ?_).weaken
  · exact fun _ _ reached => reached.2
  · rintro report entry before _ ⟨progress, steps⟩
    have member' : application ∈ before.applications := by rw [progress.2]; exact member
    have consistent' := consistent.changes progress.1
    apply ((importEntry_progress (fun _ => True) consistent' member' options report entry.1
      (draw entry.2) now).and (importEntry_audit consistent' member' options report entry.1
      (draw entry.2))).mono
    · exact fun _ _ step => ⟨progress.trans step.1, steps.trans step.2⟩
    · exact fun _ _ _ => trivial

theorem reissueClaimsForTarget_audit {application : Application}
    (member : application ∈ db.applications) (draw : Nat → Uuid × String) :
    (reissueClaimsForTarget application draw now).Ensures db fun _ after =>
      AuditSteps decided now db after := by
  unfold reissueClaimsForTarget
  apply Program.Spec.readThen
  apply Program.Spec.bind (Program.Spec.foldEach (W := store) (fun _ after =>
    Progress environment (fun _ => True) db after ∧ AuditSteps decided now db after)
    ⟨.refl db, .refl⟩ ?_)
  · exact fun _ _ reached => .of_pure reached.2
  · rintro count domainId before _ ⟨progress, steps⟩
    have member' : application ∈ before.applications := by rw [progress.2]; exact member
    have consistent' := consistent.changes progress.1
    apply (((reissueClaim_progress (fun _ => True) consistent' member' domainId _ _ now).and
      (reissueClaim_audit consistent' application domainId _ _)).mono
      (fun _ _ post => post) fun _ _ _ => trivial).bind
    exact fun _ _ step => .of_pure ⟨progress.trans step.1, steps.trans step.2⟩

theorem deleteApplication_audit (application : Application) (confirmSlug : String)
    (deleteDomains : Bool) :
    (deleteApplication application confirmSlug deleteDomains now).Ensures db fun _ after =>
      AuditSteps decided now db after := by
  unfold deleteApplication
  apply Program.Spec.requireThen
  · intro _
    apply Program.Spec.readThen
    apply Program.Spec.requireThen
    · intro _
      apply Program.Spec.readThen
      apply Program.Spec.bind (Program.Spec.foldEach (W := store) (fun _ after =>
        Progress environment (fun _ => True) db after ∧ AuditSteps decided now db after)
        ⟨.refl db, .refl⟩ ?_)
      · rintro _ buried ⟨-, steps⟩
        apply Program.Spec.readThen
        apply Program.Spec.readThen
        apply Program.Spec.weaken (Program.Within.audit ?_)
        · exact fun _ _ rest => steps.trans rest
        · refine Program.Within.bind (Program.Within.foldEach fun _ credential =>
            revokeCredentialRow_silent credential now) fun _ => ?_
          refine Program.Within.bind (Program.Within.foldEach fun _ origin =>
            flushOrigin_silent _ _) fun _ => ?_
          refine Program.Within.bind (fun _ => trivial) fun latest => ?_
          exact (flushApplication_silent _ _).bind fun _ => trivial
      · rintro _ domainId before _ ⟨progress, steps⟩
        have consistent' := consistent.changes progress.1
        apply (((deleteDomain_progress (fun _ => True) consistent' domainId now).and
          (deleteDomain_audit consistent' application domainId)).mono
          (fun _ _ post => post) fun _ _ _ => trivial).bind
        exact fun _ _ step => .of_pure ⟨progress.trans step.1, steps.trans step.2⟩
    · exact fun _ => trivial
  · exact fun _ => trivial

end Loops

end Domains

end CustomDomain
