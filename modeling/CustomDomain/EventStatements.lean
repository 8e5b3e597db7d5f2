import CustomDomain.AuditTrail
import CustomDomain.ServiceRuns

/-!
# The statements record what they do

Each statement of the service that changes a domain records it: `Tells` says
that the events it appends are a history from what the domain was to what it has
become, with a delivery for every subscription that wants one.  Nothing here
depends on the stored row, only on the object in the session.
-/

namespace CustomDomain

open Transaction EventHistory

/-! ## Recording -/

/-- The stamp of the next event of a domain. -/
def Database.stamp (db : Database) (domainId : Uuid) (now : Time) : Time :=
  match latestEvent db domainId with
  | some last => if now ≤ last then last + 1 else now
  | none => now

/-- The event is sent to the subscription. -/
def wants (event : DomainEvent) (subscription : WebhookSubscription) : Bool :=
  decide (subscription.applicationId = event.applicationId) && subscription.revokedAt.isNone &&
    (webhookEventType event).any fun eventType => decide (eventType ∈ subscription.events)

/-- The rows of `enqueue_for_event`. -/
def enqueued (subscriptions : List WebhookSubscription) (domain : Domain) (event : DomainEvent) :
    List WebhookDelivery :=
  match webhookEventType event with
  | none => []
  | some eventType =>
      (subscriptions.filter fun subscription =>
        decide (subscription.applicationId = domain.applicationId) &&
          subscription.revokedAt.isNone && decide (eventType ∈ subscription.events)).map
        fun subscription =>
          { subscriptionId := subscription.id
            applicationId := domain.applicationId
            event := event
            eventType := eventType
            domain := domain
            nextAttemptAt := some event.createdAt
            createdAt := event.createdAt }

theorem enqueueForEvent_run (domain : Domain) (event : DomainEvent) (db : Database) :
    (enqueueForEvent domain event).run db =
      (.ok (), { db with
        deliveries := db.deliveries ++ enqueued db.subscriptions domain event }) := by
  unfold enqueueForEvent enqueued
  cases webhookEventType event with
  | none => simp [Program.run]
  | some eventType =>
      simp only [Program.run_select]
      split
      next empty =>
        rw [List.isEmpty_iff] at empty
        simp [Program.run, empty]
      next => simp [Program.run]

/-- The database after `record_event`. -/
def Database.recorded (db : Database) (domain : Domain) (payload : EventPayload) (now : Time) :
    Database :=
  let event : DomainEvent := ⟨domain.id, domain.applicationId, payload, db.stamp domain.id now⟩
  { db with
    events := db.events ++ [event]
    deliveries := db.deliveries ++ enqueued db.subscriptions domain event }

theorem recordEvent_run (domain : Domain) (payload : EventPayload) (now : Time) (db : Database) :
    (recordEvent domain payload now).run db = (.ok (), db.recorded domain payload now) :=
  enqueueForEvent_run domain ⟨domain.id, domain.applicationId, payload, db.stamp domain.id now⟩
    { db with
      events := db.events ++
        [⟨domain.id, domain.applicationId, payload, db.stamp domain.id now⟩] }

theorem recordEvent_ensures (domain : Domain) (payload : EventPayload) (now : Time)
    (db : Database) :
    (recordEvent domain payload now).Ensures db fun _ after =>
      after = db.recorded domain payload now :=
  .of_run (recordEvent_run domain payload now db) rfl

/-- Events, deliveries and subscriptions are the same. -/
structure Database.SameLog (db after : Database) : Prop where
  events : after.events = db.events
  deliveries : after.deliveries = db.deliveries
  subscriptions : after.subscriptions = db.subscriptions

theorem Database.SameLog.refl (db : Database) : db.SameLog db := ⟨rfl, rfl, rfl⟩

theorem Database.SameLog.trans {db middle after : Database} (left : db.SameLog middle)
    (right : middle.SameLog after) : db.SameLog after :=
  ⟨right.events.trans left.events, right.deliveries.trans left.deliveries,
    right.subscriptions.trans left.subscriptions⟩

/-- Events with these payloads were recorded of one domain, and nothing else
was. -/
inductive Logs (id applicationId : Uuid) (now : Time) :
    Database → List EventPayload → Database → Prop
  | quiet {db after : Database} (same : db.SameLog after) : Logs id applicationId now db [] after
  | entry {db middle after : Database} {domain : Domain} {payloads : List EventPayload}
      (same : db.SameLog middle) (here : domain.id = id)
      (owner : domain.applicationId = applicationId) (payload : EventPayload)
      (rest : Logs id applicationId now (middle.recorded domain payload now) payloads after) :
      Logs id applicationId now db (payload :: payloads) after

namespace Logs

variable {id applicationId : Uuid} {now : Time} {db middle after : Database}
  {first second : List EventPayload}

theorem after_quiet (same : db.SameLog middle)
    (logs : Logs id applicationId now middle first after) :
    Logs id applicationId now db first after := by
  cases logs with
  | quiet rest => exact .quiet (same.trans rest)
  | entry rest here owner payload logs => exact .entry (same.trans rest) here owner payload logs

theorem trans (left : Logs id applicationId now db first middle)
    (right : Logs id applicationId now middle second after) :
    Logs id applicationId now db (first ++ second) after := by
  induction left with
  | quiet same => exact after_quiet same right
  | entry same here owner payload rest ih => exact .entry same here owner payload (ih right)

theorem single {domain : Domain} (here : domain.id = id)
    (owner : domain.applicationId = applicationId) (same : db.SameLog middle)
    (payload : EventPayload) :
    Logs id applicationId now db [payload] (middle.recorded domain payload now) :=
  .entry same here owner payload (.quiet (.refl _))

end Logs

/-! ## What the changes of a domain look like in its events -/

namespace Domain

/-- Since when ownership fails without a break, as the check's details say. -/
def failingSince (domain : Domain) : Option Time :=
  (domain.check .ownership).bind fun check => check.details.bind (·.failingSince)

theorem withCheck_check (domain : Domain) (checkType other : CheckType)
    (observation : Observation) :
    (domain.withCheck checkType observation).check other =
      if other = checkType then
        some (observation.applied ((domain.check checkType).getD { checkType := checkType }))
      else domain.check other := by
  unfold withCheck
  cases existing : domain.check checkType with
  | none =>
      unfold Domain.check at existing ⊢
      rw [addCheck, List.find?_append]
      split
      next same => simp [same, existing, Observation.applied]
      next different =>
        simp [Observation.applied, Ne.symm different]
  | some before =>
      unfold Domain.check at existing ⊢
      have typed : before.checkType = checkType := by simpa using List.find?_some existing
      have patched : DomainCheck.patch before (observation.applied before) before =
          observation.applied before := by simp [DomainCheck.patch, Observation.applied]
      simp only [updateCheck, List.find?_map]
      split
      next same =>
        subst same
        have found : domain.checks.find? ((fun check => decide (check.checkType = other)) ∘
            fun check => if check.checkType = other then
              DomainCheck.patch before (observation.applied before) check else check) =
            domain.checks.find? fun check => check.checkType = other := by
          congr 1
          funext check
          by_cases here : check.checkType = other <;> simp [here, DomainCheck.patch]
        rw [found, existing, Option.map_some, if_pos typed, patched, Option.getD_some]
      next different =>
        have found : domain.checks.find? ((fun check => decide (check.checkType = other)) ∘
            fun check => if check.checkType = checkType then
              DomainCheck.patch before (observation.applied before) check else check) =
            domain.checks.find? fun check => check.checkType = other := by
          congr 1
          funext check
          by_cases here : check.checkType = checkType <;>
            simp [here, DomainCheck.patch, Ne.symm different]
        rw [found]
        cases located : domain.checks.find? fun check => check.checkType = other with
        | none => rfl
        | some check =>
            have here : check.checkType = other := by simpa using List.find?_some located
            simp [here, different]

theorem withCheck_snapshot (domain : Domain) (checkType : CheckType) (observation : Observation)
    (previous : Option CheckStatus) (errorCode : Option String) :
    (domain.withCheck checkType observation).snapshot =
      domain.snapshot.after (.checkUpdated checkType previous observation.status errorCode) := by
  refine Snapshot.ext (domain.withCheck_status checkType observation) ?_ ?_
  · funext other
    simp only [snapshot, withCheck_check, Snapshot.after, Function.update_apply]
    split
    next => rfl
    next => rfl
  · simp [snapshot, Snapshot.after, (domain.withCheck_kept checkType observation).claims]

/-- Changing the status of one claim. -/
theorem updateClaim_snapshot {domain : Domain} (distinct : (domain.claims.map (·.id)).Nodup)
    {before : OwnershipClaim} (member : before ∈ domain.claims) (claim : OwnershipClaim) :
    (domain.updateClaim before.id (OwnershipClaim.patch before claim)).snapshot =
      domain.snapshot.setClaim before.id claim.status := by
  refine Snapshot.ext rfl rfl ?_
  simp only [snapshot, updateClaim, Snapshot.setClaim, List.map_map]
  refine List.map_congr_left fun other present => ?_
  simp only [Function.comp_apply]
  split
  next same =>
    rw [List.inj_on_of_nodup_map distinct present member same]
    simp [OwnershipClaim.patch]
  next => rfl

theorem addClaim_snapshot (domain : Domain) (claimId : Uuid) (token cnameTarget : String)
    (now : Time) :
    (domain.addClaim (domain.newClaim claimId token cnameTarget now)).snapshot =
      domain.snapshot.after (.claimIssued claimId (challengeLabel ++ "." ++ domain.hostname)) := by
  refine Snapshot.ext rfl rfl ?_
  simp [snapshot, addClaim, newClaim, Snapshot.after]

theorem snapshot_claims (domain : Domain) :
    domain.snapshot.claims.map (·.1) = domain.claims.map (·.id) := by
  simp [snapshot, Function.comp_def]

end Domain

/-- What an event says of the streak of failing ownership observations. -/
def streakAfter (now : Time) (since : Option Time) : EventPayload → Option Time
  | .checkUpdated .ownership _ status _ =>
      if status = .failing then some (since.getD now) else none
  | .claimIssued _ _ => none
  | _ => since

/-- The events recorded since `db` lead from what the domain was to what it is.
The streak in the details of the ownership check follows them where the outcomes
are `decided`. -/
structure Told (decided : Prop) (now : Time) (db : Database) (before value : Domain)
    (after : Database) : Prop where
  id : value.id = before.id
  applicationId : value.applicationId = before.applicationId
  entries : ∃ payloads, Logs before.id before.applicationId now db payloads after ∧
    before.snapshot.History payloads ∧
    payloads.foldl Snapshot.after before.snapshot = value.snapshot ∧
    (decided → payloads.foldl (streakAfter now) before.failingSince = value.failingSince)

namespace Told

variable {decided : Prop} {now : Time} {db middle after : Database} {before value last : Domain}

theorem trans (left : Told decided now db before value middle)
    (right : Told decided now middle value last after) : Told decided now db before last after where
  id := right.id.trans left.id
  applicationId := right.applicationId.trans left.applicationId
  entries := by
    obtain ⟨first, firstLogs, firstHistory, firstEnds, firstStreak⟩ := left.entries
    obtain ⟨second, secondLogs, secondHistory, secondEnds, secondStreak⟩ := right.entries
    rw [left.id, left.applicationId] at secondLogs
    rw [← firstEnds] at secondHistory secondEnds
    refine ⟨first ++ second, firstLogs.trans secondLogs, firstHistory.append secondHistory, ?_, ?_⟩
    · rw [List.foldl_append]
      exact secondEnds
    · intro settled
      rw [List.foldl_append, firstStreak settled]
      exact secondStreak settled

/-- Nothing that the events tell has changed. -/
theorem quiet (same : db.SameLog after) (id : value.id = before.id)
    (applicationId : value.applicationId = before.applicationId)
    (snapshot : value.snapshot = before.snapshot)
    (streak : value.failingSince = before.failingSince) :
    Told decided now db before value after where
  id := id
  applicationId := applicationId
  entries := ⟨[], .quiet same, trivial, snapshot.symm, fun _ => streak.symm⟩

theorem refl (before : Domain) (db : Database) : Told decided now db before before db :=
  quiet (.refl db) rfl rfl rfl rfl

/-- One event, recorded of the object as it is by then. -/
theorem event {subject : Domain} {payload : EventPayload} (same : db.SameLog middle)
    (subjectId : subject.id = before.id)
    (subjectOwner : subject.applicationId = before.applicationId)
    (id : value.id = before.id) (applicationId : value.applicationId = before.applicationId)
    (allows : before.snapshot.Allows payload)
    (snapshot : value.snapshot = before.snapshot.after payload)
    (streak : decided → value.failingSince = streakAfter now before.failingSince payload) :
    Told decided now db before value (middle.recorded subject payload now) where
  id := id
  applicationId := applicationId
  entries := ⟨[payload], .single subjectId subjectOwner same payload, ⟨allows, trivial⟩,
    snapshot.symm, fun settled => (streak settled).symm⟩

/-- Claims keep distinct identifiers. -/
theorem distinct (told : Told decided now db before value after)
    (distinct : (before.claims.map (·.id)).Nodup) : (value.claims.map (·.id)).Nodup := by
  obtain ⟨payloads, -, history, ends, -⟩ := told.entries
  rw [← Domain.snapshot_claims] at distinct ⊢
  rw [← ends]
  refine history.keeps (fun snapshot _ => (snapshot.claims.map (·.1)).Nodup) distinct ?_
  intro snapshot past payload nodup allows
  have kept : ∀ claimId status, ((snapshot.setClaim claimId status).claims.map (·.1)) =
      snapshot.claims.map (·.1) := by
    intro claimId status
    simp only [Snapshot.setClaim, List.map_map]
    refine List.map_congr_left fun claim _ => ?_
    simp only [Function.comp_apply]
    split
    next same => exact same.symm
    next => rfl
  cases payload with
  | domainCreated => exact allows.elim
  | claimIssued claimId name =>
      simp only [Snapshot.after, List.map_append, List.map_cons, List.map_nil]
      rw [← List.concat_eq_append]
      exact nodup.concat allows.2
  | claimVerified claimId method => exact (kept claimId .verified).symm ▸ nodup
  | claimRevoked claimId reason => exact (kept claimId .revoked).symm ▸ nodup
  | checkUpdated | statusChanged | domainDeleted | domainImported | recheckRequested
  | connectUrlIssued => exact nodup

end Told

/-- The events lead to an object that is not deleted. -/
def Tells (decided : Prop) (now : Time) (db : Database) (before value : Domain)
    (after : Database) : Prop :=
  Told decided now db before value after ∧ value.status ≠ .deleting

theorem Tells.trans {decided : Prop} {now : Time} {db middle after : Database}
    {before value last : Domain} (left : Tells decided now db before value middle)
    (right : Tells decided now middle value last after) :
    Tells decided now db before last after :=
  ⟨left.1.trans right.1, right.2⟩

/-! ## Flushes record nothing -/

section Flushes

variable (db : Database)

theorem flushDomain_quiet (before after : Domain) :
    (flushDomain before after).Ensures db fun _ last => db.SameLog last := by
  unfold flushDomain
  split
  next => exact .of_pure (.refl db)
  next =>
    apply Program.Spec.of_write
    split
    next => exact .of_pure ⟨rfl, rfl, rfl⟩
    next => exact .of_raise trivial

theorem flushClaim_quiet (domainId : Uuid) (before after : OwnershipClaim) :
    (flushClaim domainId before after).Ensures db fun _ last => db.SameLog last := by
  unfold flushClaim
  split
  next => exact .of_pure (.refl db)
  next =>
    apply Program.Spec.of_write
    split_ifs
    · exact .of_raise trivial
    · exact .of_pure ⟨rfl, rfl, rfl⟩
    · exact .of_raise trivial

theorem insertClaim_quiet (domainId : Uuid) (claim : OwnershipClaim) :
    (insertClaim domainId claim).Ensures db fun _ last => db.SameLog last := by
  unfold insertClaim
  apply Program.Spec.of_write
  split_ifs
  · exact .of_raise trivial
  · exact .of_raise trivial
  · exact .of_pure ⟨rfl, rfl, rfl⟩
  · exact .of_raise trivial

theorem flushCheck_quiet (domainId : Uuid) (before after : DomainCheck) :
    (flushCheck domainId before after).Ensures db fun _ last => db.SameLog last := by
  unfold flushCheck
  split
  next => exact .of_pure (.refl db)
  next =>
    apply Program.Spec.of_write
    split
    next => exact .of_pure ⟨rfl, rfl, rfl⟩
    next => exact .of_raise trivial

theorem insertCheck_quiet (domainId : Uuid) (check : DomainCheck) :
    (insertCheck domainId check).Ensures db fun _ last => db.SameLog last := by
  unfold insertCheck
  apply Program.Spec.of_write
  split
  next => exact .of_raise trivial
  next =>
    split
    next => exact .of_raise trivial
    next => exact .of_pure ⟨rfl, rfl, rfl⟩

end Flushes

/-! ## Status and checks -/

section Statements

variable {decided : Prop} {now : Time} {db after : Database} {domain : Domain}

theorem transitionRefusal_allowed {status : DomainStatus}
    (granted : transitionRefusal domain status = none) (other : status ≠ domain.status) :
    status ∈ allowedTransitions domain.status := by
  unfold transitionRefusal at granted
  split at granted
  next => cases granted
  next =>
    split at granted
    next => cases granted
    next allowed => exact not_not.mp allowed

/-- A status change of the kind the service makes. -/
theorem transitionStatus_recorded (open_ : domain.status ≠ .deleting) (status : DomainStatus)
    (reason : Option String) (target : status ≠ .deleting)
    (needs : status = .attentionRequired → domain.status = .ready)
    (recovers : status = .ready →
      (reason = some "recovered" ↔ domain.status = .attentionRequired)) :
    (transitionStatus domain status reason now).Ensures db
      (Tells decided now db domain) := by
  unfold transitionStatus
  split
  next => exact .of_raise trivial
  next granted =>
    split
    next => exact .of_pure ⟨.refl domain db, open_⟩
    next other =>
      apply (flushDomain_quiet db _ _).bind
      intro _ middle same
      apply (recordEvent_ensures _ _ _ middle).bind
      rintro _ after rfl
      refine .of_pure ⟨.event same rfl rfl rfl rfl ?_ rfl fun _ => rfl, target⟩
      exact ⟨rfl, transitionRefusal_allowed granted other, target, needs, recovers⟩

/-- The streak in the observation's details is the one the event tells of. -/
def Observation.Streaks (observation : Observation) (since : Option Time) : Prop :=
  (observation.details.bind (·.failingSince)) =
    if observation.status = .failing then some (since.getD observation.observedAt) else none

theorem storeCheck_quiet (checkType : CheckType) (observation : Observation) :
    (storeCheck domain checkType observation).Ensures db fun value after =>
      value = domain.withCheck checkType observation ∧ db.SameLog after := by
  unfold storeCheck Domain.withCheck
  cases domain.check checkType with
  | none =>
      apply (insertCheck_quiet db _ _).bind
      intro _ after same
      exact .of_pure ⟨rfl, same⟩
  | some before =>
      apply (flushCheck_quiet db _ _ _).bind
      intro _ after same
      exact .of_pure ⟨rfl, same⟩

theorem withCheck_failingSince (checkType : CheckType) (observation : Observation)
    (streaks : checkType = .ownership → observation.Streaks domain.failingSince)
    (previous : Option CheckStatus) (errorCode : Option String) :
    (domain.withCheck checkType observation).failingSince =
      streakAfter observation.observedAt domain.failingSince
        (.checkUpdated checkType previous observation.status errorCode) := by
  rw [Domain.failingSince, Domain.withCheck_check]
  by_cases owns : checkType = .ownership
  · subst owns
    rw [if_pos rfl, Option.bind_some]
    exact streaks rfl
  · rw [if_neg (Ne.symm owns)]
    cases checkType with
    | ownership => exact absurd rfl owns
    | routing | certificate | origin => rfl

theorem recordCheck_recorded (open_ : domain.status ≠ .deleting) (checkType : CheckType)
    {observation : Observation} (timely : observation.observedAt = now)
    (streaks : decided → checkType = .ownership → observation.Streaks domain.failingSince) :
    (recordCheck domain checkType observation).Ensures db (Tells decided now db domain) := by
  unfold recordCheck
  subst timely
  apply (storeCheck_quiet checkType observation).bind
  rintro _ middle ⟨rfl, same⟩
  apply (recordEvent_ensures _ _ _ middle).bind
  rintro _ after rfl
  have kept := domain.withCheck_kept checkType observation
  have opened : (domain.withCheck checkType observation).status ≠ .deleting := by
    rw [Domain.withCheck_status]
    exact open_
  have first : Tells decided observation.observedAt db domain
      (domain.withCheck checkType observation)
      (middle.recorded (domain.withCheck checkType observation) (.checkUpdated checkType
        ((domain.check checkType).map (·.status)) observation.status
        (if observation.status = .failing then observation.errorCode else none))
        observation.observedAt) :=
    ⟨.event same kept.id kept.applicationId kept.id kept.applicationId ⟨open_, rfl⟩
      (domain.withCheck_snapshot checkType observation _ _)
      fun settled => withCheck_failingSince checkType observation (streaks settled) _ _, opened⟩
  split
  next failing =>
    apply (transitionStatus_recorded opened .attentionRequired _ nofun (fun _ => failing.2)
      nofun).weaken
    intro value last second
    exact first.trans second
  next => exact .of_pure first

theorem recordOutcome_recorded (open_ : domain.status ≠ .deleting) (checkType : CheckType)
    (outcome : Outcome) (fast : Bool)
    (settled : decided → checkType = .ownership → outcome.status ≠ .pending) :
    (recordOutcome domain checkType outcome fast now).Ensures db
      (Tells decided now db domain) := by
  apply recordCheck_recorded open_ checkType rfl
  intro holds owns
  subst owns
  have decision := settled holds rfl
  unfold Observation.Streaks Outcome.observation scheduleNext Domain.failingSince
  cases status : outcome.status with
  | pending => exact absurd status decision
  | passing => simp [Outcome.passing, status]
  | failing =>
      cases domain.check .ownership with
      | none => simp [Outcome.passing, status]
      | some check => cases details : check.details <;> simp [Outcome.passing, status, details]

/-! ## Claims -/

theorem activeClaim_mem {claim : OwnershipClaim} (active : domain.activeClaim = some claim) :
    claim ∈ domain.claims :=
  List.mem_of_find?_eq_some active

theorem markClaimVerified_recorded (open_ : domain.status ≠ .deleting)
    (distinct : (domain.claims.map (·.id)).Nodup) (method : VerificationMethod) :
    (markClaimVerified domain method now).Ensures db (Tells decided now db domain) := by
  unfold markClaimVerified
  split
  next => exact .of_raise trivial
  next before active =>
    split
    next => exact .of_raise trivial
    next =>
      apply (flushClaim_quiet db _ _ _).bind
      intro _ middle same
      apply (recordEvent_ensures _ _ _ middle).bind
      rintro _ after rfl
      refine .of_pure ⟨.event same rfl rfl rfl rfl open_ ?_ fun _ => rfl, open_⟩
      exact Domain.updateClaim_snapshot distinct (activeClaim_mem active) _

/-- The event of a revocation, if there is a claim to revoke. -/
def Domain.revocation (domain : Domain) (reason : String) : List EventPayload :=
  domain.activeClaim.toList.map fun claim => .claimRevoked claim.id reason

theorem revokeLiveClaim_logs (reason : String) :
    (revokeLiveClaim domain reason now).Ensures db fun value after =>
      value = domain.revoked now ∧
        Logs domain.id domain.applicationId now db (domain.revocation reason) after := by
  unfold revokeLiveClaim Domain.revoked Domain.changeClaim Domain.revocation
  cases active : domain.activeClaim with
  | none => exact .of_pure ⟨rfl, .quiet (.refl db)⟩
  | some before =>
      apply (flushClaim_quiet db _ _ _).bind
      intro _ middle same
      apply (recordEvent_ensures _ _ _ middle).bind
      rintro _ after rfl
      exact .of_pure ⟨rfl, .single rfl rfl same _⟩

/-- What a revocation makes of the domain, as its event tells it. -/
theorem Domain.revoked_snapshot (distinct : (domain.claims.map (·.id)).Nodup) (reason : String)
    (now : Time) :
    (domain.revocation reason).foldl Snapshot.after domain.snapshot =
      (domain.revoked now).snapshot := by
  unfold Domain.revoked Domain.changeClaim Domain.revocation
  cases active : domain.activeClaim with
  | none => rfl
  | some before =>
      exact (updateClaim_snapshot distinct (activeClaim_mem active)
        { before with status := .revoked, revokedAt := some now }).symm

theorem Domain.revoked_failingSince (domain : Domain) (now : Time) :
    (domain.revoked now).failingSince = domain.failingSince := by
  unfold Domain.revoked Domain.changeClaim
  cases domain.activeClaim with
  | none => rfl
  | some before => rfl

theorem revocation_streak (reason : String) (since : Option Time) :
    (domain.revocation reason).foldl (streakAfter now) since = since := by
  unfold Domain.revocation
  cases domain.activeClaim with
  | none => rfl
  | some before => rfl

theorem revocation_history {snapshot : Snapshot} (open_ : snapshot.status ≠ .deleting)
    (reason : String) : snapshot.History (domain.revocation reason) := by
  unfold Domain.revocation
  cases domain.activeClaim with
  | none => exact trivial
  | some before => exact ⟨open_, trivial⟩

theorem revokeLiveClaim_recorded (open_ : domain.status ≠ .deleting)
    (distinct : (domain.claims.map (·.id)).Nodup) (reason : String) :
    (revokeLiveClaim domain reason now).Ensures db (Tells decided now db domain) := by
  apply (revokeLiveClaim_logs reason).weaken
  rintro _ after ⟨rfl, logs⟩
  have alike := domain.changeClaim_alike fun before =>
    { before with status := .revoked, revokedAt := some now }
  refine ⟨⟨alike.id, alike.applicationId, _, logs, revocation_history open_ reason,
    Domain.revoked_snapshot distinct reason now, fun _ => ?_⟩, ?_⟩
  · rw [revocation_streak, Domain.revoked_failingSince]
  · rw [Domain.revoked, Domain.changeClaim_status]
    exact open_

/-- A claim is issued under a new identifier, and when no streak goes on. -/
theorem issueClaim_recorded (open_ : domain.status ≠ .deleting) {claimId : Uuid}
    (fresh : claimId ∉ domain.claims.map (·.id)) (token cnameTarget : String)
    (calm : decided → domain.failingSince = none) :
    (issueClaim domain claimId token cnameTarget now).Ensures db
      (Tells decided now db domain) := by
  unfold issueClaim
  apply (insertClaim_quiet db _ _).bind
  intro _ middle same
  apply (recordEvent_ensures _ _ _ middle).bind
  rintro _ after rfl
  refine .of_pure ⟨.event same rfl rfl rfl rfl ⟨open_, ?_⟩ ?_ calm, open_⟩
  · rw [Domain.snapshot_claims]
    exact fresh
  · exact domain.addClaim_snapshot claimId token cnameTarget now

/-! ## The status rules -/

theorem verifyPending_recorded (open_ : domain.status ≠ .deleting)
    (distinct : (domain.claims.map (·.id)).Nodup) :
    (verifyPending domain now).Ensures db (Tells decided now db domain) := by
  unfold verifyPending
  split
  next => exact markClaimVerified_recorded open_ distinct .dnsTxt
  next => exact .of_pure ⟨.refl domain db, open_⟩

theorem dnsPassed_recorded (open_ : domain.status ≠ .deleting)
    (distinct : (domain.claims.map (·.id)).Nodup) :
    (dnsPassed domain now).Ensures db (Tells decided now db domain) := by
  unfold dnsPassed
  apply (verifyPending_recorded open_ distinct).bind
  intro value middle first
  split
  next early =>
    apply (transitionStatus_recorded first.2 .provisioning _ nofun nofun nofun).weaken
    exact fun _ _ second => first.trans second
  next =>
    split
    next recovered =>
      apply (transitionStatus_recorded first.2 .ready _ nofun nofun fun _ => ?_).weaken
      · exact fun _ _ second => first.trans second
      · simp [recovered.1]
    next => exact .of_pure first

theorem dnsFailed_recorded (open_ : domain.status ≠ .deleting) (ownership : Outcome) :
    (dnsFailed domain ownership now).Ensures db (Tells decided now db domain) := by
  unfold dnsFailed
  dsimp only
  split
  next => exact transitionStatus_recorded open_ .pendingDns _ nofun nofun nofun
  next =>
    split
    next => exact transitionStatus_recorded open_ .suspended _ nofun nofun nofun
    next => exact .of_pure ⟨.refl domain db, open_⟩

theorem applyDnsOutcomes_recorded (open_ : domain.status ≠ .deleting)
    (distinct : (domain.claims.map (·.id)).Nodup) {ownership : Outcome} (routing : Outcome)
    (settled : decided → ownership.status ≠ .pending) :
    (applyDnsOutcomes domain ownership routing now).Ensures db
      (Tells decided now db domain) := by
  unfold applyDnsOutcomes
  apply (recordOutcome_recorded open_ .ownership ownership _ fun holds _ => settled holds).bind
  intro value middle first
  apply (recordOutcome_recorded first.2 .routing routing _ nofun).bind
  intro value last second
  have both := first.trans second
  split
  next =>
    apply (dnsPassed_recorded both.2 (both.1.distinct distinct)).weaken
    exact fun _ _ third => both.trans third
  next =>
    apply (dnsFailed_recorded both.2 ownership).weaken
    exact fun _ _ third => both.trans third

theorem applyEdgeOutcomes_recorded (open_ : domain.status ≠ .deleting)
    (certificate origin : Outcome) :
    (applyEdgeOutcomes domain certificate origin now).Ensures db
      (Tells decided now db domain) := by
  unfold applyEdgeOutcomes
  apply (recordOutcome_recorded open_ .certificate certificate _ fun (_ : decided) => nofun).bind
  intro value middle first
  apply (recordOutcome_recorded first.2 .origin origin _ nofun).bind
  intro value last second
  have both := first.trans second
  split
  next guard =>
    apply (transitionStatus_recorded both.2 .ready _ nofun nofun fun _ => ?_).weaken
    · exact fun _ _ third => both.trans third
    · rcases guard.1 with status | status <;> simp [status]
  next => exact .of_pure both

theorem leaveStatus_recorded (open_ : domain.status ≠ .deleting) :
    (leaveStatus domain now).Ensures db (Tells decided now db domain) := by
  unfold leaveStatus
  split
  next => exact transitionStatus_recorded open_ .pendingDns _ nofun nofun nofun
  next => exact .of_pure ⟨.refl domain db, open_⟩

/-! ## Rescheduling -/

theorem updateCheck_check (checkType other : CheckType) {change : DomainCheck → DomainCheck}
    (keeps : ∀ check, (change check).checkType = check.checkType) :
    (domain.updateCheck checkType change).check other =
      (domain.check other).map fun check =>
        if check.checkType = checkType then change check else check := by
  unfold Domain.check
  simp only [Domain.updateCheck, List.find?_map]
  congr 2
  funext check
  simp only [Function.comp_apply]
  split
  next => rw [keeps]
  next => rfl

/-- A change of when checks run. -/
theorem Told.rescheduled (same : db.SameLog after) (checkType : CheckType)
    {change : DomainCheck → DomainCheck}
    (keeps : ∀ check, (change check).checkType = check.checkType)
    (status : ∀ check, (change check).status = check.status)
    (details : ∀ check, (change check).details = check.details) :
    Told decided now db domain (domain.updateCheck checkType change) after := by
  refine .quiet same rfl rfl (Snapshot.ext rfl ?_ rfl) ?_
  · funext other
    simp only [Domain.snapshot, updateCheck_check checkType other keeps, Option.map_map]
    congr 1
    funext check
    simp only [Function.comp_apply]
    split
    next => exact status check
    next => rfl
  · rw [Domain.failingSince, updateCheck_check checkType _ keeps, Domain.failingSince]
    cases domain.check .ownership with
    | none => rfl
    | some check =>
        simp only [Option.map_some, Option.bind_some]
        split
        next => rw [details]
        next => rfl

theorem scheduleCheck_recorded (open_ : domain.status ≠ .deleting) (check : DomainCheck)
    (at_ : Time) :
    (scheduleCheck domain check at_).Ensures db (Tells decided now db domain) := by
  unfold scheduleCheck
  apply (flushCheck_quiet db _ _ _).bind
  intro _ after same
  refine .of_pure ⟨.rescheduled same _ ?_ ?_ ?_, open_⟩
  · exact fun _ => rfl
  · exact fun _ => by simp [DomainCheck.patch, column]
  · exact fun _ => by simp [DomainCheck.patch, column]

/-- A loop over a domain whose rounds are recorded. -/
theorem foldEach_recorded {ι : Type} {body : Domain → ι → Sql Domain} (items : List ι)
    (open_ : domain.status ≠ .deleting)
    (round : ∀ (domain : Domain) (db : Database) (item : ι), domain.status ≠ .deleting →
      (body domain item).Ensures db (Tells decided now db domain)) :
    (Program.foldEach items domain body).Ensures db (Tells decided now db domain) := by
  refine Program.Spec.foldEach (W := store) (Tells decided now db domain)
    ⟨.refl domain db, open_⟩ ?_
  intro value item middle _ first
  apply (round value middle item first.2).weaken
  exact fun _ _ second => first.trans second

end Statements

end CustomDomain
