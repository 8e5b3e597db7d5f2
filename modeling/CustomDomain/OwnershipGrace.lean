import CustomDomain.WebhookStream

/-!
# The grace before a suspension

A domain whose ownership record is lost is suspended only after the record was
missing for `ownershipLossGrace` without a break.  The streak is kept in the
details of the ownership check; here it is compared with the history of the
domain, as the operations of a run recorded it.
-/

namespace CustomDomain

open Transaction EventHistory

/-! ## Streaks -/

/-- What a history says of the ownership of one domain: an outcome was recorded,
or the domain was registered or its claim issued anew. -/
inductive OwnershipMark where
  | observed (status : CheckStatus) (at_ : Time)
  | renewed
  deriving DecidableEq

/-- An observation at `since` failed, and so did every one after it, with no new
claim in between. -/
def Unbroken (history : List OwnershipMark) (since : Time) : Prop :=
  ∃ past rest, history = past ++ .observed .failing since :: rest ∧
    ∀ mark ∈ rest, ∃ at_, mark = .observed .failing at_

/-- The unbroken streak began at `since`: what came before did not fail. -/
def Began (history : List OwnershipMark) (since : Time) : Prop :=
  ∃ past rest, history = past ++ .observed .failing since :: rest ∧
    (∀ mark ∈ rest, ∃ at_, mark = .observed .failing at_) ∧
    ∀ at_, past.getLast? ≠ some (.observed .failing at_)

theorem Began.unbroken {history : List OwnershipMark} {since : Time}
    (began : Began history since) : Unbroken history since := by
  obtain ⟨past, rest, same, failing, -⟩ := began
  exact ⟨past, rest, same, failing⟩

def streakMark (since : Option Time) : OwnershipMark → Option Time
  | .observed .failing at_ => some (since.getD at_)
  | _ => none

/-- Since when the marks fail without a break. -/
def streak (history : List OwnershipMark) : Option Time := history.foldl streakMark none

/-- A history that ends with a failure has a streak, and no other has. -/
theorem streak_isSome_iff (history : List OwnershipMark) :
    (∃ since, streak history = some since) ↔
      ∃ at_, history.getLast? = some (.observed .failing at_) := by
  induction history using List.reverseRecOn with
  | nil => simp [streak]
  | append_singleton past mark _ =>
      rw [streak, List.foldl_append, List.getLast?_concat]
      rcases mark with ⟨_ | _ | _, at_⟩ | _ <;> simp [streakMark]

theorem streak_eq_some_iff {history : List OwnershipMark} {since : Time} :
    streak history = some since ↔ Began history since := by
  induction history using List.reverseRecOn with
  | nil => simp [streak, Began]
  | append_singleton past mark ih =>
      rw [streak, List.foldl_append, ← streak, List.foldl_cons, List.foldl_nil]
      constructor
      · intro streaks
        rcases mark with ⟨_ | _ | _, at_⟩ | _
        case observed.failing =>
          cases before : streak past with
          | some start =>
              rw [before] at streaks ih
              cases streaks
              obtain ⟨earlier, rest, rfl, failing, starts⟩ := ih.mp rfl
              refine ⟨earlier, rest ++ [.observed .failing at_], by simp, ?_, starts⟩
              intro mark member
              rcases List.mem_append.mp member with old | last
              · exact failing mark old
              · exact ⟨at_, List.mem_singleton.mp last⟩
          | none =>
              rw [before] at streaks
              cases streaks
              refine ⟨past, [], rfl, by simp, fun time last => ?_⟩
              obtain ⟨start, streaked⟩ := (streak_isSome_iff past).mpr ⟨time, last⟩
              rw [before] at streaked
              cases streaked
        all_goals cases streaks
      · rintro ⟨earlier, rest, same, failing, starts⟩
        rcases split_concat.mp same with ⟨middle, rfl, inside⟩ | ⟨rfl, rfl, rfl⟩
        · obtain ⟨time, rfl⟩ := failing mark (by simp)
          have began : Began past since :=
            ⟨earlier, middle, inside, fun mark member => failing mark (by simp [member]), starts⟩
          rw [ih.mpr began]
          rfl
        · have quiet : streak past = none := by
            by_contra streaked
            obtain ⟨start, streaked⟩ := Option.ne_none_iff_exists'.mp streaked
            obtain ⟨time, last⟩ := (streak_isSome_iff past).mp ⟨start, streaked⟩
            exact starts time last
          rw [quiet]
          rfl

/-! ## The history of a domain -/

/-- What an event recorded by an operation at `now` says of the ownership. -/
def ownershipMark (now : Time) : EventPayload → Option OwnershipMark
  | .checkUpdated .ownership _ status _ => some (.observed status now)
  | .claimIssued _ _ | .domainCreated _ _ => some .renewed
  | _ => none

/-- The marks an operation leaves on a domain. -/
def ownershipMarks (now : Time) (db after : Database) (id : Uuid) : List OwnershipMark :=
  ((db.recordedSince after).filter fun event => event.domainId = id).filterMap fun event =>
    ownershipMark now event.payload

/-- What a run recorded of the ownership of a domain, in order. -/
def ownershipHistory (environment : Environment) (id : Uuid) :
    List ServiceOp → Database → List OwnershipMark
  | [], _ => []
  | op :: ops, db =>
      ownershipMarks op.time db (op.run environment db) id ++
        ownershipHistory environment id ops (op.run environment db)

/-- Along a history the events tell the streak as the marks do. -/
theorem streak_of_history {snapshot : Snapshot} {payloads : List EventPayload}
    (history : snapshot.History payloads) (now : Time) (since : Option Time) :
    (payloads.filterMap (ownershipMark now)).foldl streakMark since =
      payloads.foldl (streakAfter now) since := by
  rw [List.foldl_filterMap]
  induction payloads generalizing snapshot since with
  | nil => rfl
  | cons payload payloads ih =>
      rw [List.foldl_cons, List.foldl_cons, ih history.2]
      congr 1
      cases payload with
      | domainCreated => exact history.1.elim
      | checkUpdated check previous status errorCode =>
          cases check <;> cases status <;> rfl
      | claimIssued | claimVerified | claimRevoked | statusChanged | domainDeleted
      | domainImported | recheckRequested | connectUrlIssued => rfl

section Marks

variable {now : Time} {db middle after : Database}

theorem ownershipMarks_quiet (same : after.events = db.events) (id : Uuid) :
    ownershipMarks now db after id = [] := by
  simp [ownershipMarks, Database.recordedSince, same]

theorem ownershipMarks_trans {first second : List DomainEvent}
    (left : middle.events = db.events ++ first) (right : after.events = middle.events ++ second)
    (id : Uuid) :
    ownershipMarks now db after id =
      ownershipMarks now db middle id ++ ownershipMarks now middle after id := by
  simp [ownershipMarks, Database.recordedSince, left, right]

theorem Logs.marks {id applicationId : Uuid} {payloads : List EventPayload}
    (logs : Logs id applicationId now db payloads after) (other : Uuid) :
    ownershipMarks now db after other =
      if other = id then payloads.filterMap (ownershipMark now) else [] := by
  obtain ⟨new, appended, rfl, owned⟩ := logs.events
  rw [ownershipMarks, Database.recordedSince, appended, List.drop_left]
  split
  next here =>
    subst here
    rw [List.filter_eq_self.mpr (by simpa using fun event member => (owned event member).1),
      List.filterMap_map]
    rfl
  next elsewhere =>
    rw [List.filter_eq_nil_iff.mpr ?_, List.filterMap_nil]
    intro event member
    simp [(owned event member).1, Ne.symm elsewhere]

end Marks

/-- The check's details tell the streak of every stored domain. -/
def Database.Streaked (db : Database) (history : Uuid → List OwnershipMark) : Prop :=
  ∀ domain ∈ db.domains, domain.failingSince = streak (history domain.id)

theorem streak_append (history more : List OwnershipMark) :
    streak (history ++ more) = more.foldl streakMark (streak history) := by
  rw [streak, List.foldl_append, ← streak]

theorem Database.Streaked.step {decided : Prop} {now : Time} {db after : Database}
    {history : Uuid → List OwnershipMark} (settled : decided) (streaked : db.Streaked history)
    (step : AuditStep decided now db after) :
    after.Streaked fun id => history id ++ ownershipMarks now db after id := by
  cases step with
  | quiet same domains =>
      intro domain stored
      rw [domains] at stored
      dsimp only
      rw [ownershipMarks_quiet same.events, List.append_nil]
      exact streaked domain stored
  | @told domain next after member told holds =>
      obtain ⟨payloads, logs, allowed, -, tells⟩ := told.entries
      intro row present
      dsimp only
      rw [logs.marks]
      by_cases here : row.id = next.id
      · rw [holds.row_eq present here, told.id, if_pos rfl, streak_append,
          streak_of_history allowed, ← streaked domain member]
        exact (tells settled).symm
      · rw [if_neg (by rwa [← told.id]), List.append_nil]
        rw [holds.domains] at present
        obtain ⟨before, stored, shape⟩ := List.mem_map.mp present
        split at shape
        next => exact absurd (congrArg Domain.id shape.symm) here
        next =>
          subst shape
          exact streaked _ stored
  | @registered next after hostname reference payloads adds unused logs allowed ends tells =>
      intro row present
      dsimp only
      rw [logs.marks]
      rw [adds.domains, List.mem_append, List.mem_singleton] at present
      rcases present with stored | rfl
      · have elsewhere : row.id ≠ next.id := by
          intro same
          exact absurd (List.find?_eq_none.mp unused row stored) (by simp [same])
        rw [if_neg elsewhere, List.append_nil]
        exact streaked row stored
      · -- Whatever came before, a registration starts without a streak.
        have renewed : (EventPayload.domainCreated hostname reference :: payloads).filterMap
            (ownershipMark now) = .renewed :: payloads.filterMap (ownershipMark now) := rfl
        rw [if_pos rfl, streak_append, renewed, List.foldl_cons, streak_of_history allowed]
        exact (tells settled).symm

theorem Database.Streaked.steps {decided : Prop} {now : Time} {db after : Database}
    {history : Uuid → List OwnershipMark} (settled : decided) (streaked : db.Streaked history)
    (steps : AuditSteps decided now db after) :
    after.Streaked fun id => history id ++ ownershipMarks now db after id := by
  induction steps with
  | refl =>
      intro domain stored
      dsimp only
      rw [ownershipMarks_quiet rfl, List.append_nil]
      exact streaked domain stored
  | tail earlier step ih =>
      obtain ⟨first, _, grown⟩ := auditSteps_grow earlier
      obtain ⟨second, _, growth⟩ := step.grows
      intro domain stored
      have next := ih.step settled step domain stored
      dsimp only at next ⊢
      rwa [List.append_assoc, ← ownershipMarks_trans grown.events growth.events] at next

/-! ## What a streak says of the check -/

/-- Only a failing check has a streak. -/
def Domain.Witnessed (domain : Domain) : Prop :=
  domain.failingSince ≠ none → domain.snapshot.checks .ownership = some .failing

theorem streak_witnessed {snapshot : Snapshot} {payloads : List EventPayload}
    (history : snapshot.History payloads) (now : Time) (since : Option Time)
    (witnessed : since ≠ none → snapshot.checks .ownership = some .failing) :
    payloads.foldl (streakAfter now) since ≠ none →
      (payloads.foldl Snapshot.after snapshot).checks .ownership = some .failing := by
  induction payloads generalizing snapshot since with
  | nil => exact witnessed
  | cons payload payloads ih =>
      apply ih history.2
      cases payload with
      | domainCreated => exact history.1.elim
      | checkUpdated check previous status errorCode =>
          cases check with
          | ownership =>
              simp only [streakAfter, Snapshot.after, Function.update_self]
              split
              next failing => exact fun _ => by rw [failing]
              next => exact fun some => absurd rfl some
          | routing | certificate | origin => exact witnessed
      | claimIssued => exact fun some => absurd rfl some
      | claimVerified | claimRevoked | statusChanged | domainDeleted | domainImported
      | recheckRequested | connectUrlIssued => exact witnessed

theorem AuditStep.witnessed {decided : Prop} {now : Time} {db after : Database}
    (settled : decided) (step : AuditStep decided now db after)
    (witnessed : ∀ domain ∈ db.domains, domain.Witnessed) :
    ∀ domain ∈ after.domains, domain.Witnessed := by
  cases step with
  | quiet same domains =>
      rw [domains]
      exact witnessed
  | @told domain next after member told holds =>
      obtain ⟨payloads, -, allowed, ends, tells⟩ := told.entries
      intro row present
      rw [holds.domains] at present
      obtain ⟨before, stored, rfl⟩ := List.mem_map.mp present
      split
      next =>
        unfold Domain.Witnessed
        rw [← tells settled, ← ends]
        exact streak_witnessed allowed now _ (witnessed domain member)
      next => exact witnessed before stored
  | registered adds unused logs allowed ends tells =>
      intro row present
      rw [adds.domains, List.mem_append, List.mem_singleton] at present
      rcases present with stored | rfl
      · exact witnessed row stored
      · unfold Domain.Witnessed
        rw [← tells settled, ← ends]
        exact streak_witnessed allowed now none fun some => absurd rfl some

/-! ## The ownership check of a ready domain -/

namespace Domain

/-- The ownership check of a ready domain passes. -/
def Calm (domain : Domain) : Prop :=
  domain.status = .ready → domain.snapshot.checks .ownership = some .passing

theorem snapshot_checks (domain : Domain) (checkType : CheckType) :
    domain.snapshot.checks checkType = (domain.check checkType).map (·.status) := rfl

theorem observed_checks (domain : Domain) (checkType : CheckType) (observation : Observation) :
    (domain.observed checkType observation).snapshot.checks =
      Function.update domain.snapshot.checks checkType (some observation.status) := by
  have recorded : (domain.withCheck checkType observation).snapshot.checks =
      Function.update domain.snapshot.checks checkType (some observation.status) := by
    rw [domain.withCheck_snapshot checkType observation none none]
    rfl
  unfold observed
  dsimp only
  split
  next => exact recorded
  next => exact recorded

theorem Calm.observed {domain : Domain} (calm : domain.Calm) (checkType : CheckType)
    {observation : Observation}
    (settled : checkType = .ownership → observation.status ≠ .pending) :
    (domain.observed checkType observation).Calm := by
  intro ready
  rw [observed_status] at ready
  split at ready
  next => cases ready
  next holds =>
    rw [observed_checks]
    by_cases owns : checkType = .ownership
    · subst owns
      rw [Function.update_self]
      cases status : observation.status with
      | pending => exact absurd status (settled rfl)
      | passing => rfl
      | failing => exact absurd ⟨status, ready⟩ holds
    · rw [Function.update_of_ne (Ne.symm owns)]
      exact calm ready

theorem Complete.ownership_passing {domain : Domain} (complete : domain.Complete)
    (passing : checksPassing domain = true) :
    domain.snapshot.checks .ownership = some .passing := by
  obtain ⟨check, member, type⟩ := complete.exists_check .ownership
  have found := complete.check_eq member
  rw [type] at found
  rw [snapshot_checks, found, Option.map_some, (complete.checksPassing_iff.mp passing) check member]

theorem proven_frame (domain : Domain) (now : Time) :
    (domain.proven now).status = domain.status ∧ (domain.proven now).checks = domain.checks := by
  unfold proven
  split
  next => exact ⟨changeClaim_status _ _, changeClaim_checks _ _⟩
  next => exact ⟨rfl, rfl⟩

theorem Calm.dnsApplied {domain : Domain} (calm : domain.Calm) (complete : domain.Complete)
    {ownership : Outcome} (settled : ownership.status ≠ .pending) (routing : Outcome)
    (now : Time) : (domain.dnsApplied ownership routing now).Calm := by
  have first : (domain.outcomeRecorded .ownership ownership (fastRecheckDue domain now) now).Calm :=
    calm.observed .ownership fun _ => settled
  have second : ((domain.outcomeRecorded .ownership ownership (fastRecheckDue domain now)
      now).outcomeRecorded .routing routing (fastRecheckDue domain now) now).Calm :=
    first.observed .routing fun same => by cases same
  have full := (complete.outcomeRecorded .ownership ownership (fastRecheckDue domain now)
    now).outcomeRecorded .routing routing (fastRecheckDue domain now) now
  rw [Domain.dnsApplied]
  generalize (domain.outcomeRecorded .ownership ownership (fastRecheckDue domain now)
    now).outcomeRecorded .routing routing (fastRecheckDue domain now) now = recorded at *
  split
  next =>
    obtain ⟨status, checks⟩ := recorded.proven_frame now
    have proven : (recorded.proven now).Calm := by
      intro ready
      rw [status] at ready
      have passing := second ready
      rwa [snapshot_checks, Domain.check, checks]
    rw [passedDns]
    split
    next => exact fun same => by cases same
    next =>
      split
      next guard =>
        have complete : (recorded.proven now).Complete := by rwa [Complete, checks]
        exact fun _ => complete.ownership_passing guard.2
      next => exact proven
  next =>
    rw [failedDns]
    split
    next => exact fun same => by cases same
    next =>
      split
      next => exact fun same => by cases same
      next => exact second

theorem Calm.edgeApplied {domain : Domain} (calm : domain.Calm) (complete : domain.Complete)
    (certificate origin : Outcome) (now : Time) :
    (domain.edgeApplied certificate origin now).Calm := by
  have first : (domain.outcomeRecorded .certificate certificate false now).Calm :=
    calm.observed .certificate nofun
  have second : ((domain.outcomeRecorded .certificate certificate false now).outcomeRecorded
      .origin origin false now).Calm := first.observed .origin nofun
  have full := (complete.outcomeRecorded .certificate certificate false now).outcomeRecorded
    .origin origin false now
  rw [Domain.edgeApplied]
  split
  next guard => exact fun _ => full.ownership_passing guard.2.2
  next => exact second

/-- The edge phase suspends nothing. -/
theorem edgeApplied_suspended {domain : Domain} {certificate origin : Outcome} {now : Time}
    (suspended : (domain.edgeApplied certificate origin now).status = .suspended) :
    domain.status = .suspended := by
  rw [Domain.edgeApplied] at suspended
  split at suspended
  next => cases suspended
  next =>
    rw [outcomeRecorded, observed_status, outcomeRecorded, observed_status] at suspended
    split_ifs at suspended
    exact suspended

/-! ## The suspension -/

/-- The streak in the details after a decided ownership outcome. -/
theorem outcomeRecorded_failingSince (domain : Domain) {ownership : Outcome}
    (settled : ownership.status ≠ .pending) (fast : Bool) (now : Time) :
    (domain.outcomeRecorded .ownership ownership fast now).failingSince =
      if ownership.status = .failing then some (domain.failingSince.getD now) else none := by
  have recorded : ∀ observation : Observation,
      (domain.observed .ownership observation).failingSince =
        observation.details.bind (·.failingSince) := by
    intro observation
    have row : (domain.withCheck .ownership observation).failingSince =
        observation.details.bind (·.failingSince) := by
      rw [failingSince, withCheck_check, if_pos rfl]
      rfl
    unfold observed
    dsimp only
    split
    next => exact row
    next => exact row
  rw [outcomeRecorded, recorded, Outcome.observation, scheduleNext]
  cases status : ownership.status with
  | pending => exact absurd status settled
  | passing => simp [Outcome.passing, status]
  | failing =>
      unfold failingSince
      cases domain.check .ownership with
      | none => simp [Outcome.passing, status]
      | some check => cases details : check.details <;> simp [Outcome.passing, status, details]

theorem observed_failingSince (domain : Domain) {checkType : CheckType}
    (other : checkType ≠ .ownership) (observation : Observation) :
    (domain.observed checkType observation).failingSince = domain.failingSince := by
  have row : (domain.withCheck checkType observation).failingSince = domain.failingSince := by
    rw [failingSince, withCheck_check, if_neg (Ne.symm other)]
    rfl
  unfold observed
  dsimp only
  split
  next => exact row
  next => exact row

theorem ownershipLost_iff (domain : Domain) (now : Time) :
    ownershipLost domain now = true ↔
      ∃ since, domain.failingSince = some since ∧ ownershipLossGrace ≤ now - since := by
  unfold ownershipLost failingSince
  cases (domain.check .ownership).bind fun check => check.details.bind (·.failingSince) with
  | none => simp
  | some since => simp

/-- Both DNS outcomes, recorded. -/
def dnsRecorded (domain : Domain) (ownership routing : Outcome) (now : Time) : Domain :=
  (domain.outcomeRecorded .ownership ownership (fastRecheckDue domain now) now).outcomeRecorded
    .routing routing (fastRecheckDue domain now) now

theorem dnsApplied_eq (domain : Domain) (ownership routing : Outcome) (now : Time) :
    domain.dnsApplied ownership routing now =
      if ownership.passing && routing.passing then
        (domain.dnsRecorded ownership routing now).passedDns now
      else (domain.dnsRecorded ownership routing now).failedDns ownership now := rfl

theorem dnsRecorded_status (domain : Domain) (ownership routing : Outcome) (now : Time) :
    (domain.dnsRecorded ownership routing now).status =
      if (ownership.status = .failing ∨ routing.status = .failing) ∧ domain.status = .ready then
        .attentionRequired
      else domain.status := by
  rw [dnsRecorded, outcomeRecorded, observed_status, outcomeRecorded, observed_status]
  have same : ∀ (outcome : Outcome) (check : Option DomainCheck) (fast : Bool),
      (outcome.observation check fast now).status = outcome.status := fun _ _ _ => rfl
  rw [same, same]
  by_cases ready : domain.status = .ready
  · by_cases owns : ownership.status = .failing <;> simp [ready, owns]
  · simp [ready]

theorem dnsRecorded_failingSince (domain : Domain) {ownership : Outcome}
    (settled : ownership.status ≠ .pending) (routing : Outcome) (now : Time) :
    (domain.dnsRecorded ownership routing now).failingSince =
      if ownership.status = .failing then some (domain.failingSince.getD now) else none := by
  rw [dnsRecorded, outcomeRecorded, observed_failingSince _ (by decide)]
  exact domain.outcomeRecorded_failingSince settled (fastRecheckDue domain now) now

/-- Only the failure branch suspends. -/
theorem passedDns_not_suspended (domain : Domain) (now : Time) :
    (domain.passedDns now).status ≠ .suspended := by
  rw [passedDns]
  split
  next => exact fun same => by cases same
  next other =>
    split
    next => exact fun same => by cases same
    next => exact fun suspended => other (.inr suspended)

/-- Applying DNS outcomes suspends a domain that was not suspended exactly when
it needs attention, its claim is verified, ownership fails and the streak is
old enough. -/
theorem dnsApplied_suspended_iff {domain : Domain} (calm : domain.Calm)
    (witnessed : domain.Witnessed) (other : domain.status ≠ .suspended) {ownership : Outcome}
    (settled : ownership.status ≠ .pending) (routing : Outcome) (now : Time) :
    (domain.dnsApplied ownership routing now).status = .suspended ↔
      domain.status = .attentionRequired ∧
        (domain.activeClaim.map (·.status)) = some .verified ∧ ownership.status = .failing ∧
        ∃ since, domain.failingSince = some since ∧ ownershipLossGrace ≤ now - since := by
  have claim : (domain.dnsRecorded ownership routing now).activeClaim = domain.activeClaim :=
    ((domain.outcomeRecorded_kept .ownership ownership _ now).trans
      (outcomeRecorded_kept _ .routing routing _ now)).activeClaim
  have status := domain.dnsRecorded_status ownership routing now
  have since := domain.dnsRecorded_failingSince settled routing now
  have lost := (domain.dnsRecorded ownership routing now).ownershipLost_iff now
  rw [dnsApplied_eq]
  generalize domain.dnsRecorded ownership routing now = recorded at *
  constructor
  · intro suspended
    split at suspended
    next => exact absurd suspended (passedDns_not_suspended _ _)
    next =>
      rw [failedDns] at suspended
      split at suspended
      next => cases suspended
      next =>
        split at suspended
        next guard =>
          obtain ⟨attention, failed, verified, gone⟩ := guard
          have failing : ownership.status = .failing := by
            cases outcome : ownership.status with
            | pending => exact absurd outcome settled
            | passing => simp [Outcome.passing, outcome] at failed
            | failing => rfl
          obtain ⟨start, began, long⟩ := lost.mp gone
          rw [since, if_pos failing] at began
          have streaked : domain.failingSince = some start := by
            cases streak : domain.failingSince with
            | some first =>
                rw [streak] at began
                exact began
            | none =>
                rw [streak] at began
                have fresh : now = start := Option.some.inj began
                rw [fresh, sub_self] at long
                exact absurd long (by decide)
          refine ⟨?_, by rw [← claim, verified], failing, start, streaked, long⟩
          rw [status] at attention
          split at attention
          next ready =>
            have passing := calm ready.2
            have failed := witnessed (by simp [streaked])
            rw [passing] at failed
            cases failed
          next => exact attention
        next =>
          rw [status] at suspended
          split at suspended
          next => cases suspended
          next => exact absurd suspended other
  · rintro ⟨attention, verified, failing, start, streaked, long⟩
    have failed : ownership.passing = false := by simp [Outcome.passing, failing]
    have still : recorded.status = .attentionRequired := by
      rw [status, if_neg (by simp [attention]), attention]
    rw [failed, Bool.false_and, if_neg (by simp), failedDns, if_neg (by simp [still]), if_pos]
    · rfl
    · refine ⟨still, failed, by rw [claim, verified], lost.mpr ⟨start, ?_, long⟩⟩
      rw [since, if_pos failing, streaked]
      rfl

/-- A re-issue suspends nothing. -/
theorem reissued_suspended {domain : Domain} (sound : domain.Sound) {claimId : Uuid}
    {token cnameTarget : String} {now : Time}
    (suspended : (domain.reissued claimId token cnameTarget now).status = .suspended) :
    domain.status = .suspended := by
  have complete : (domain.revoked now).Complete := by
    rw [Complete, revoked, changeClaim_checks]
    exact sound.complete
  obtain ⟨-, -, status⟩ := resetChecks_facts CheckType.all now _ complete
  rw [revoked, changeClaim_status] at status
  rw [reissued, addClaim, reset] at suspended
  dsimp only at suspended
  split at suspended
  next => cases suspended
  next =>
    rw [revoked, status] at suspended
    exact suspended

theorem Rescheduled.snapshot_checks {first second : Domain} (same : first.Rescheduled second) :
    second.snapshot.checks = first.snapshot.checks := by
  have told : ∀ (domain : Domain) (checkType : CheckType), domain.snapshot.checks checkType =
      ((domain.checks.map fun check => (check.checkType, check.status)).find? fun pair =>
        pair.1 = checkType).map (·.2) := by
    intro domain checkType
    rw [List.find?_map, Option.map_map]
    rfl
  funext checkType
  rw [told, told, same.checks]

end Domain

/-! ## Runs -/

/-- The row `_load` returns. -/
theorem loadDomain_found (domainId : Uuid) (db : Database) :
    (loadDomain domainId).Returns db fun found after => after = db ∧
      found.map (·.domain) =
        ((db.domain? domainId).filter (·.isLive)).filter fun domain =>
          domain.status != .deleting := by
  have stored : ∀ domain, (db.domain? domainId).filter (·.isLive) = some domain →
      db.domain? domain.id = some domain := by
    intro domain found
    rw [Option.filter_eq_some_iff] at found
    rw [(Database.domain?_id found.1).1]
    exact found.1
  unfold loadDomain
  apply (selectDomain_spec stored).bind
  rintro _ after ⟨rfl, rfl⟩
  refine .of_pure ⟨rfl, ?_⟩
  cases (Database.domain? after domainId).filter (·.isLive) with
  | none => rfl
  | some domain =>
      simp only [Option.map_some, Option.filter_some]
      split <;> rfl

/-- Where the row was suspended or ready, it was so before. -/
structure Database.Foresees (db : Database) (row : Domain) : Prop where
  suspended : row.status = .suspended →
    ∃ before ∈ db.domains, before.id = row.id ∧ before.status = .suspended
  ready : row.status = .ready →
    ∃ before ∈ db.domains, before.status = .ready ∧ before.snapshot.checks = row.snapshot.checks

theorem Database.Foresees.of_mem {db : Database} {row : Domain} (stored : row ∈ db.domains) :
    db.Foresees row :=
  ⟨fun status => ⟨row, stored, rfl, status⟩, fun status => ⟨row, stored, status, rfl⟩⟩

theorem Database.Foresees.of_status {db : Database} {row : Domain}
    (open_ : row.status ≠ .suspended) (unready : row.status ≠ .ready) : db.Foresees row :=
  ⟨fun status => absurd status open_, fun status => absurd status unready⟩

section Steps

variable {environment : Environment} {db after : Database}
  (consistent : db.Consistent environment)

include consistent

/-- Nothing but an outcome makes a domain suspended or ready. -/
theorem Change.foresees (change : Change environment (fun _ => False) db after) :
    ∀ row ∈ after.domains, db.Foresees row := by
  cases change with
  | quiet same =>
      rw [same.domains]
      exact fun row stored => .of_mem stored
  | @registered _ _ _ _ _ now domain registration adopted _ adds =>
      intro row present
      rw [adds.domains, List.mem_append, List.mem_singleton] at present
      rcases present with stored | rfl
      · exact .of_mem stored
      · split
        next =>
          have status : (domain.adopted now).status = .provisioning := rfl
          exact .of_status (by rw [status]; nofun) (by rw [status]; nofun)
        next =>
          rw [registration.eq]
          exact .of_status (by simp [Domain.registered, newDomain])
            (by simp [Domain.registered, newDomain])
  | @evolved moved next present evolves _ holds =>
      have sound := consistent.sound moved present
      have id := (evolves.frame sound).1
      intro row member
      rw [holds.domains] at member
      obtain ⟨before, stored, rfl⟩ := List.mem_map.mp member
      split
      next =>
        cases evolves with
        | dns live admitted now => exact admitted.1.elim
        | edge live admitted now => exact admitted.1.elim
        | @reissued live application owner claimId token unseen now =>
            refine ⟨fun status => ⟨moved, present, id.symm, ?_⟩, fun status => ?_⟩
            · exact Domain.reissued_suspended sound status
            · obtain ⟨-, -, -, notReady⟩ := Domain.reset_facts sound live now
              exact absurd status notReady
        | tombstoned live now =>
            have deleting : (moved.tombstoned now).status = .deleting := by
              rw [Domain.tombstoned, Domain.revoked, Domain.changeClaim_status]
              rfl
            exact .of_status (by simp [deleting]) (by simp [deleting])
        | rescheduled live same =>
            exact ⟨fun status => ⟨moved, present, id.symm, same.status ▸ status⟩,
              fun status => ⟨moved, present, same.status ▸ status, same.snapshot_checks.symm⟩⟩
      next => exact .of_mem stored
  | applicationCreated | applicationChanged | originAdded | originChanged | originRemoved
  | credentialsChanged => exact fun row stored => .of_mem stored

theorem Changes.foresees (changes : Changes environment (fun _ => False) db after) :
    ∀ row ∈ after.domains, db.Foresees row := by
  induction changes with
  | refl => exact fun row stored => .of_mem stored
  | tail earlier step ih =>
      intro row stored
      have last := step.foresees (consistent.changes earlier) row stored
      refine ⟨fun status => ?_, fun status => ?_⟩
      · obtain ⟨middle, present, id, suspended⟩ := last.suspended status
        obtain ⟨before, member, same, suspended⟩ := (ih middle present).suspended suspended
        exact ⟨before, member, same.trans id, suspended⟩
      · obtain ⟨middle, present, ready, checks⟩ := last.ready status
        obtain ⟨before, member, ready, same⟩ := (ih middle present).ready ready
        exact ⟨before, member, ready, same.trans checks⟩

/-- What applying DNS outcomes does to the stored rows. -/
theorem applyDnsOutcomes_run (id : Uuid) (ownership routing : Outcome) (now : Time) :
    let after := (ServiceOp.applyDnsOutcomes id ownership routing now).run environment db
    (after = db ∧ ∀ domain ∈ db.domains, domain.id = id → domain.isLive = false) ∨
      ∃ domain ∈ db.domains, domain.id = id ∧
        Holds db (domain.dnsApplied ownership routing now) after := by
  have spec : ((ServiceOp.applyDnsOutcomes id ownership routing now).program environment).Returns
      db fun _ after =>
        (after = db ∧ ∀ domain ∈ db.domains, domain.id = id → domain.isLive = false) ∨
          ∃ domain ∈ db.domains, domain.id = id ∧
            Holds db (domain.dnsApplied ownership routing now) after := by
    unfold ServiceOp.program withLoaded
    apply (loadDomain_found id db).bind
    rintro found _ ⟨rfl, row⟩
    cases found with
    | none =>
        refine .of_pure (.inl ⟨rfl, fun domain stored same => ?_⟩)
        by_contra live
        rw [Bool.not_eq_false] at live
        have here : Database.domain? _ id = some domain :=
          same ▸ KeyedRows.lookup_of_mem consistent.keyed stored
        have open_ := ((consistent.sound domain stored).live live).1
        rw [here, Option.filter_some, if_pos live, Option.filter_some,
          if_pos (by simpa using open_)] at row
        cases row
    | some loaded =>
        rw [Option.map_some, eq_comm, Option.filter_eq_some_iff, Option.filter_eq_some_iff] at row
        obtain ⟨⟨here, live⟩, -⟩ := row
        obtain ⟨same, stored⟩ := Database.domain?_id here
        simp only [if_true]
        apply (applyDnsOutcomes_spec (Holds.self consistent.keyed stored)
          (consistent.sound _ stored) live ownership routing now).bind
        rintro _ after ⟨-, holds⟩
        exact .of_pure (.inr ⟨_, stored, same, holds⟩)
  obtain ⟨value, after, ran⟩ := spec.returns
  rw [ServiceOp.run, Program.transact_of_ok ran]
  exact spec.result ran

theorem applyEdgeOutcomes_rows (id : Uuid) (certificate origin : Outcome) (now : Time) :
    ∀ row ∈ ((ServiceOp.applyEdgeOutcomes id certificate origin now).run environment db).domains,
      row ∈ db.domains ∨
        ∃ before ∈ db.domains, before.id = row.id ∧ row = before.edgeApplied certificate origin now := by
  have spec : ((ServiceOp.applyEdgeOutcomes id certificate origin now).program
      environment).Ensures db fun _ after => ∀ row ∈ after.domains, row ∈ db.domains ∨
        ∃ before ∈ db.domains, before.id = row.id ∧
          row = before.edgeApplied certificate origin now := by
    unfold ServiceOp.program
    refine withLoaded_ensures (fun row stored => .inl stored) fun domain stored live => ?_
    apply (applyEdgeOutcomes_spec (Holds.self consistent.keyed stored)
      (consistent.sound domain stored) live certificate origin now).mono _ fun _ _ absurd =>
        absurd.elim
    rintro _ after ⟨-, holds⟩ row present
    rw [holds.domains] at present
    obtain ⟨before, member, rfl⟩ := List.mem_map.mp present
    split
    next => exact .inr ⟨domain, stored, (domain.edgeApplied_kept certificate origin now).id.symm, rfl⟩
    next => exact .inl member
  exact spec.transact fun row stored => .inl stored

/-- Only outcomes make a domain suspended or ready. -/
theorem ServiceOp.foresees (op : ServiceOp) :
    (∀ row ∈ (op.run environment db).domains, db.Foresees row) ∨
      (∃ id ownership routing now, op = .applyDnsOutcomes id ownership routing now) ∨
      ∃ id certificate origin now, op = .applyEdgeOutcomes id certificate origin now := by
  have others : op.Admits (fun _ => False) →
      ∀ row ∈ (op.run environment db).domains, db.Foresees row := by
    intro admitted
    rcases ServiceOp.step consistent admitted with changes | ⟨now, purged⟩
    · exact changes.foresees consistent
    · rw [purged]
      exact fun row kept => .of_mem (List.mem_of_mem_filter kept)
  cases op with
  | applyDnsOutcomes id ownership routing now => exact .inr (.inl ⟨_, _, _, _, rfl⟩)
  | applyEdgeOutcomes id certificate origin now => exact .inr (.inr ⟨_, _, _, _, rfl⟩)
  | _ => exact .inl (others trivial)

end Steps

/-- What holds of the streaks in every state a run reaches. -/
structure Database.Gracious (environment : Environment) (db : Database)
    (history : Uuid → List OwnershipMark) : Prop where
  consistent : db.Consistent environment
  streaked : db.Streaked history
  witnessed : ∀ domain ∈ db.domains, domain.Witnessed
  calm : ∀ domain ∈ db.domains, domain.Calm

namespace Database.Gracious

variable {environment : Environment} {db : Database} {history : Uuid → List OwnershipMark}
  (gracious : db.Gracious environment history)

include gracious

theorem run_calm {op : ServiceOp} (settled : op.Settled) :
    ∀ row ∈ (op.run environment db).domains, row.Calm := by
  rcases op.foresees gracious.consistent with foreseen | ⟨id, ownership, routing, now, rfl⟩ |
    ⟨id, certificate, origin, now, rfl⟩
  · intro row stored ready
    obtain ⟨before, present, wasReady, checks⟩ := (foreseen row stored).ready ready
    rw [← checks]
    exact gracious.calm before present wasReady
  · rcases applyDnsOutcomes_run gracious.consistent id ownership routing now with
      ⟨same, -⟩ | ⟨domain, stored, -, holds⟩
    · rw [same]
      exact gracious.calm
    · intro row present
      rw [holds.domains] at present
      obtain ⟨before, member, rfl⟩ := List.mem_map.mp present
      split
      next =>
        exact (gracious.calm domain stored).dnsApplied
          (gracious.consistent.sound domain stored).complete settled routing now
      next => exact gracious.calm before member
  · intro row stored
    rcases applyEdgeOutcomes_rows gracious.consistent id certificate origin now row stored with
      old | ⟨before, present, -, rfl⟩
    · exact gracious.calm row old
    · exact (gracious.calm before present).edgeApplied
        (gracious.consistent.sound before present).complete certificate origin now

theorem run {op : ServiceOp} (settled : op.Settled) :
    (op.run environment db).Gracious environment fun id =>
      history id ++ ownershipMarks op.time db (op.run environment db) id := by
  have calm := gracious.run_calm settled
  have consistent : (op.run environment db).Consistent environment :=
    gracious.consistent.runAll [op]
  rcases op.audit gracious.consistent with steps | ⟨now, rfl⟩
  · refine ⟨consistent, gracious.streaked.steps settled steps, ?_, calm⟩
    clear calm consistent
    generalize op.run environment db = after at steps
    induction steps with
    | refl => exact gracious.witnessed
    | tail _ step ih => exact step.witnessed settled ih
  · refine ⟨consistent, ?_, ?_, calm⟩
    · intro domain kept
      have none : ownershipMarks (ServiceOp.purgeTombstones now).time db
          ((ServiceOp.purgeTombstones now).run environment db) domain.id = [] := by
        have fewer : ((ServiceOp.purgeTombstones now).run environment db).events.length ≤
            db.events.length := by
          rw [ServiceOp.run_purge]
          exact List.length_filter_le _ _
        rw [ownershipMarks, Database.recordedSince, List.drop_eq_nil_iff.mpr fewer]
        rfl
      dsimp only
      rw [none, List.append_nil]
      rw [ServiceOp.run_purge] at kept
      exact gracious.streaked domain (List.mem_of_mem_filter kept)
    · rw [ServiceOp.run_purge]
      exact fun domain kept => gracious.witnessed domain (List.mem_of_mem_filter kept)

theorem runAll {ops : List ServiceOp} (settled : ∀ op ∈ ops, op.Settled) :
    (runAll environment ops db).Gracious environment fun id =>
      history id ++ ownershipHistory environment id ops db := by
  induction ops generalizing db history with
  | nil =>
      simp only [ownershipHistory, List.append_nil]
      exact gracious
  | cons op ops ih =>
      have rest := ih (gracious.run (settled op (by simp)))
        fun op member => settled op (by simp [member])
      simp only [ownershipHistory, ← List.append_assoc]
      exact rest

end Database.Gracious

theorem Database.gracious_empty (environment : Environment) :
    ({} : Database).Gracious environment fun _ => [] :=
  ⟨Database.consistent_empty environment, nofun, nofun, nofun⟩

/-- A domain is suspended when its ownership record is missing and was found
missing `ownershipLossGrace` ago or longer, every time since, under the same
claim; and then it is. -/
theorem ownership_loss_grace (environment : Environment) (ops : List ServiceOp)
    (settled : ∀ op ∈ ops, op.Settled) (op : ServiceOp) (settles : op.Settled) :
    let db := runAll environment ops {}
    let after := op.run environment db
    let history := fun id => ownershipHistory environment id ops {}
    (∀ row ∈ after.domains, row.status = .suspended →
      (∀ before ∈ db.domains, before.id = row.id → before.status ≠ .suspended) →
      ∃ before ∈ db.domains, before.id = row.id ∧ before.status = .attentionRequired ∧
        (before.activeClaim.map (·.status)) = some .verified ∧
        ∃ ownership routing now, op = .applyDnsOutcomes row.id ownership routing now ∧
          ownership.status = .failing ∧
          ∃ since ≤ now - ownershipLossGrace, Unbroken (history row.id) since) ∧
    (∀ domain ∈ db.domains, ∀ ownership routing now since,
      op = .applyDnsOutcomes domain.id ownership routing now →
      domain.status = .attentionRequired →
      (domain.activeClaim.map (·.status)) = some .verified → ownership.status = .failing →
      Began (history domain.id) since → since ≤ now - ownershipLossGrace →
      ∃ row ∈ after.domains, row.id = domain.id ∧ row.status = .suspended) := by
  intro db after history
  have gracious : db.Gracious environment history := by
    have reached := (Database.gracious_empty environment).runAll settled
    simpa using reached
  refine ⟨fun row stored suspended entered => ?_, ?_⟩
  · rcases op.foresees gracious.consistent with foreseen | ⟨id, ownership, routing, now, rfl⟩ |
      ⟨id, certificate, origin, now, rfl⟩
    · obtain ⟨before, present, same, was⟩ := (foreseen row stored).suspended suspended
      exact absurd was (entered before present same)
    · rcases applyDnsOutcomes_run gracious.consistent id ownership routing now with
        ⟨same, -⟩ | ⟨domain, present, rfl, holds⟩
      · rw [show after = db from same] at stored
        exact absurd suspended (entered row stored rfl)
      · have id : (domain.dnsApplied ownership routing now).id = domain.id :=
          (domain.dnsApplied_alike ownership routing now).id
        by_cases here : row.id = domain.id
        · have next := holds.row_eq stored (here.trans id.symm)
          rw [next] at suspended
          have conditions := (Domain.dnsApplied_suspended_iff (gracious.calm domain present)
            (gracious.witnessed domain present) (entered domain present here.symm) settles routing
            now).mp suspended
          obtain ⟨attention, verified, failing, since, streaked, long⟩ := conditions
          refine ⟨domain, present, here.symm, attention, verified, ownership, routing, now,
            by rw [here], failing, since, le_sub_comm.mp long, ?_⟩
          rw [here]
          rw [gracious.streaked domain present] at streaked
          exact (streak_eq_some_iff.mp streaked).unbroken
        · have kept := stored
          rw [holds.domains] at kept
          obtain ⟨before, member, shape⟩ := List.mem_map.mp kept
          split at shape
          next => exact absurd (congrArg Domain.id shape.symm) (by rwa [id])
          next => exact absurd (shape ▸ suspended) (entered before member (by rw [shape]))
    · rcases applyEdgeOutcomes_rows gracious.consistent id certificate origin now row stored with
        old | ⟨before, present, same, rfl⟩
      · exact absurd suspended (entered row old rfl)
      · exact absurd (Domain.edgeApplied_suspended suspended) (entered before present same)
  · rintro domain stored ownership routing now since rfl attention verified failing began long
    have live : domain.isLive = true := by
      by_contra deleted
      rw [Bool.not_eq_true] at deleted
      have deleting := ((gracious.consistent.sound domain stored).deleted deleted).1
      rw [attention] at deleting
      cases deleting
    rcases applyDnsOutcomes_run gracious.consistent domain.id ownership routing now with
      ⟨-, gone⟩ | ⟨other, present, same, holds⟩
    · rw [gone domain stored rfl] at live
      cases live
    · have unique : other = domain :=
        List.inj_on_of_nodup_map gracious.consistent.keyed present stored same
      subst unique
      refine ⟨_, holds.mem, (other.dnsApplied_alike ownership routing now).id, ?_⟩
      refine (Domain.dnsApplied_suspended_iff (gracious.calm other stored)
        (gracious.witnessed other stored) (by rw [attention]; nofun) settles routing now).mpr ?_
      refine ⟨attention, verified, failing, since, ?_, le_sub_comm.mp long⟩
      rw [gracious.streaked other stored]
      exact streak_eq_some_iff.mpr began

/-- A ready domain whose ownership record is then found missing. -/
def lossRun : List ServiceOp :=
  readyRun ++ [.applyDnsOutcomes 2 { status := .failing } passingOutcome 3]

/-- An outcome that is pending, not failing, suspends as well. -/
theorem suspended_by_pending_outcome :
    (∃ before ∈ (runAll sampleEnvironment lossRun {}).domains,
      before.id = 2 ∧ before.status = .attentionRequired) ∧
    ∃ row ∈ ((ServiceOp.applyDnsOutcomes 2 { status := .pending } passingOutcome
        (3 + ownershipLossGrace)).run sampleEnvironment
          (runAll sampleEnvironment lossRun {})).domains,
      row.id = 2 ∧ row.status = .suspended := by
  decide +kernel

/-- The same domain, found without its record again a day later. -/
theorem ownership_loss_grace_lossRun :
    ∃ row ∈ ((ServiceOp.applyDnsOutcomes 2 { status := .failing } passingOutcome
        (3 + ownershipLossGrace)).run sampleEnvironment
          (runAll sampleEnvironment lossRun {})).domains,
      row.id = 2 ∧ row.status = .suspended := by
  have attention : ∃ domain ∈ (runAll sampleEnvironment lossRun {}).domains, domain.id = 2 ∧
      domain.status = .attentionRequired ∧
      (domain.activeClaim.map (·.status)) = some .verified := by decide +kernel
  obtain ⟨domain, stored, id, status, verified⟩ := attention
  have began : streak (ownershipHistory sampleEnvironment 2 lossRun {}) = some 3 := by
    decide +kernel
  have suspends := (ownership_loss_grace sampleEnvironment lossRun
    (by simp [lossRun, readyRun, ServiceOp.Settled, passingOutcome])
    (.applyDnsOutcomes 2 { status := .failing } passingOutcome (3 + ownershipLossGrace))
    (by simp [ServiceOp.Settled])).2 domain stored { status := .failing } passingOutcome
      (3 + ownershipLossGrace) 3 (by rw [id]) status verified rfl
      (by rw [id]; exact streak_eq_some_iff.mp began) (by simp)
  rwa [id] at suspends

end CustomDomain
