import CustomDomain.LifecycleStatements
import CustomDomain.DomainConnect

/-!
# What the worker's transactions leave

The two applying transactions of `process_domain`, run alone: each of them finds
the domain gone, discards its outcomes, or applies them to the domain whose live
claim is the one they were made for.
-/

namespace CustomDomain

open Transaction

namespace Domain

/-! ## Scheduling -/

/-- The checks that `selects` picks run at `at_`. -/
def scheduled (domain : Domain) (selects : DomainCheck → Bool) (at_ : Time) : Domain :=
  { domain with
    checks := domain.checks.map fun check =>
      if (domain.checks.filter selects).any fun selected =>
          selected.checkType == check.checkType then
        { check with nextCheckAt := some at_ }
      else check }

/-- The zone the detector found, if it found one. -/
def zoned (domain : Domain) (zone : Option String) (now : Time) : Domain :=
  if zone.isSome ∧ domain.zone ≠ zone then { domain with zone := zone, updatedAt := now }
  else domain

/-- The edge checks leased right away after a status change. -/
def edgeLeased (domain : Domain) (statusBefore : DomainStatus) (edgeDue : Bool) (now : Time) :
    Domain :=
  if domain.status ≠ statusBefore ∧ edgeDue = false then
    domain.scheduled (fun check => decide (check.checkType ∈ edgeCheckTypes) && (true ||
      check.due now)) (now + lease)
  else domain

/-- `make_checks_due`. -/
def broughtForward (domain : Domain) (at_ : Time) : Domain :=
  domain.checks.foldl
    (fun domain check =>
      if check.checkType ∈ dnsCheckTypes ∧ check.later at_ = true then
        domain.updateCheck check.checkType
          (DomainCheck.patch check { check with nextCheckAt := some at_ })
      else domain)
    domain

/-- The Domain Connect setup of the domain has begun. -/
def connecting (domain : Domain) (at_ now : Time) : Domain :=
  ({ domain with connectStartedAt := some now, updatedAt := now } : Domain).broughtForward at_

theorem scheduled_rescheduled (domain : Domain) (selects : DomainCheck → Bool) (at_ : Time) :
    domain.Rescheduled (domain.scheduled selects at_) := by
  refine ⟨rfl, rfl, rfl, rfl, rfl, rfl, rfl, rfl, ?_⟩
  rw [scheduled, List.map_map]
  refine List.map_congr_left fun check _ => ?_
  dsimp only [Function.comp]
  split <;> rfl

theorem zoned_rescheduled (domain : Domain) (zone : Option String) (now : Time) :
    domain.Rescheduled (domain.zoned zone now) := by
  unfold zoned
  split
  next => exact ⟨rfl, rfl, rfl, rfl, rfl, rfl, rfl, rfl, rfl⟩
  next => exact .refl domain

theorem edgeLeased_rescheduled (domain : Domain) (statusBefore : DomainStatus) (edgeDue : Bool)
    (now : Time) : domain.Rescheduled (domain.edgeLeased statusBefore edgeDue now) := by
  unfold edgeLeased
  split
  next => exact domain.scheduled_rescheduled _ _
  next => exact .refl domain

theorem broughtForward_rescheduled (domain : Domain) (at_ : Time) :
    domain.Rescheduled (domain.broughtForward at_) := by
  unfold broughtForward
  generalize domain.checks = pending
  induction pending generalizing domain with
  | nil => exact .refl domain
  | cons check pending ih =>
      rw [List.foldl_cons]
      split
      next => exact (domain.updateCheck_rescheduled check at_).trans (ih _)
      next => exact ih domain

theorem broughtForward_zone (domain : Domain) (at_ : Time) :
    (domain.broughtForward at_).zone = domain.zone := by
  unfold broughtForward
  generalize domain.checks = pending
  induction pending generalizing domain with
  | nil => rfl
  | cons check pending ih =>
      rw [List.foldl_cons]
      split
      next => exact ih _
      next => exact ih domain

theorem connecting_rescheduled (domain : Domain) (at_ now : Time) :
    domain.Rescheduled (domain.connecting at_ now) := by
  have started : domain.Rescheduled { domain with connectStartedAt := some now, updatedAt := now } :=
    ⟨rfl, rfl, rfl, rfl, rfl, rfl, rfl, rfl, rfl⟩
  exact started.trans (broughtForward_rescheduled _ at_)

theorem connecting_zone (domain : Domain) (at_ now : Time) :
    (domain.connecting at_ now).zone = domain.zone :=
  broughtForward_zone _ at_

end Domain

section Statements

variable {base db : Database} {domain : Domain} (holds : Holds base domain db)

include holds

theorem selectedChecks_eq (selects : DomainCheck → Bool) :
    selectedChecks db domain.id selects = domain.checks.filter selects := by
  rw [selectedChecks, holds.found]
  rfl

theorem setNextCheck_spec (selects : DomainCheck → Bool) (at_ : Time) :
    (setNextCheck domain.id selects at_).Returns db fun _ after =>
      Holds base (domain.scheduled selects at_) after := by
  have updated := holds.update (fun row =>
    { row with
      checks := row.checks.map fun check =>
        if (selectedChecks db domain.id selects).any fun selected =>
            selected.checkType == check.checkType then
          { check with nextCheckAt := some at_ }
        else check }) rfl
  refine Program.Spec.of_write (.of_pure ?_)
  simp only [selectedChecks_eq holds] at updated ⊢
  exact updated

theorem storeZone_spec (zone : Option String) (now : Time) :
    (storeZone domain zone now).Returns db (Becomes base (domain.zoned zone now)) := by
  unfold storeZone Domain.zoned
  split
  next =>
    have flushed : (flushDomain domain { domain with zone := zone, updatedAt := now }).Returns db
        fun _ after => Holds base { domain with zone := zone, updatedAt := now } after :=
      flushDomain_spec holds rfl (by simp [Domain.patch])
    exact flushed.bind fun _ after holds => .of_pure ⟨rfl, holds⟩
  next => exact .of_pure ⟨rfl, holds⟩

theorem leaseEdgeChecks_spec (statusBefore : DomainStatus) (edgeDue : Bool) (now : Time) :
    (leaseEdgeChecks domain statusBefore edgeDue now).Returns db fun due after =>
      (due = true → edgeDue = true ∨ domain.status ≠ statusBefore) ∧
        Holds base (domain.edgeLeased statusBefore edgeDue now) after := by
  unfold leaseEdgeChecks Domain.edgeLeased
  split
  next changed =>
    exact (setNextCheck_spec holds _ _).weaken fun _ _ holds => ⟨fun _ => .inr changed.1, holds⟩
  next => exact .of_pure ⟨.inl, holds⟩

theorem makeChecksDue_spec (at_ : Time) :
    (makeChecksDue domain at_).Returns db (Becomes base (domain.broughtForward at_)) := by
  refine foldEach_spec holds (fun _ => True) trivial (fun _ _ _ => trivial) ?_ domain.checks
  intro db domain check holds _
  split
  next => exact scheduleCheck_spec holds check at_
  next => exact .of_pure ⟨rfl, holds⟩

theorem startConnect_spec (at_ now : Time) :
    (startConnect domain at_ now).Returns db (Becomes base (domain.connecting at_ now)) := by
  have flushed : (flushDomain domain
      { domain with connectStartedAt := some now, updatedAt := now }).Returns db fun _ after =>
        Holds base { domain with connectStartedAt := some now, updatedAt := now } after :=
    flushDomain_spec holds rfl (by simp [Domain.patch])
  exact flushed.bind fun _ after holds => makeChecksDue_spec holds at_

end Statements

/-- The domain `_load` returns. -/
def Database.Loads (db : Database) (domainId : Uuid) (domain : Domain) : Prop :=
  domain ∈ db.domains ∧ domain.id = domainId ∧ domain.isLive = true ∧ domain.status ≠ .deleting

section Phases

variable {db : Database} (keyed : db.Keyed) (sound : ∀ domain ∈ db.domains, domain.Sound)

theorem loadDomain_spec (domainId : Uuid) (db : Database) :
    (loadDomain domainId).Returns db fun found after => after = db ∧
      ∀ loaded ∈ found, db.Loads domainId loaded.domain ∧
        loaded.application = db.application? loaded.domain.applicationId := by
  have stored : ∀ domain, (db.domain? domainId).filter (·.isLive) = some domain →
      db.domain? domain.id = some domain := by
    intro domain found
    rw [Option.filter_eq_some_iff] at found
    rw [(Database.domain?_id found.1).1]
    exact found.1
  unfold loadDomain
  refine (selectDomain_spec stored).bind ?_
  rintro _ after ⟨rfl, rfl⟩
  refine .of_pure ⟨rfl, fun loaded found => ?_⟩
  rw [Option.mem_def, Option.filter_eq_some_iff, Option.map_eq_some_iff] at found
  obtain ⟨⟨domain, row, rfl⟩, open_⟩ := found
  rw [Option.filter_eq_some_iff] at row
  obtain ⟨id, member⟩ := Database.domain?_id row.1
  exact ⟨⟨member, id, row.2, by simpa using open_⟩, rfl⟩

include keyed sound

/-- How the DNS phase can end: with the rows as they were, with the checks due
again, or with the outcomes applied to the claim they were queried for. -/
theorem applyDnsPhase_spec (domainId applicationId : Uuid) (results : DnsResults) (now : Time) :
    (applyDnsPhase domainId applicationId results now).Returns db fun phase after =>
      match phase with
      | .gone => after = db
      | .discarded => ∃ domain, db.Loads domainId domain ∧ claimVersion domain ≠ results.queried ∧
          Holds db (domain.scheduled (fun check => decide (check.checkType ∈ dnsCheckTypes)) now)
            after
      | .applied value edgeDue => ∃ domain, db.Loads domainId domain ∧
          claimVersion domain = results.queried ∧
          value = (domain.dnsApplied results.ownership results.routing now).zoned results.zone now ∧
          (edgeDue = true → results.edgeDue = true ∨ value.status ≠ results.statusBefore) ∧
          Holds db (value.edgeLeased results.statusBefore results.edgeDue now) after := by
  unfold applyDnsPhase lockApplication
  refine Program.Spec.of_write ?_
  refine (loadDomain_spec domainId db).andThen ?_
  rintro found after ⟨rfl, facts⟩
  cases found with
  | none => exact .of_pure rfl
  | some loaded =>
      obtain ⟨loads, -⟩ := facts loaded rfl
      have holds := Holds.self keyed loads.1
      dsimp only
      split
      next changed =>
        rw [← loads.2.1]
        refine (setNextCheck_spec holds _ _).bind fun _ _ holds => .of_pure ?_
        exact ⟨loaded.domain, ⟨loads.1, rfl, loads.2.2⟩, changed, holds⟩
      next unchanged =>
        refine (applyDnsOutcomes_spec holds (sound _ loads.1) loads.2.2.1 _ _ now).bind ?_
        rintro _ _ ⟨rfl, holds⟩
        refine (storeZone_spec holds _ _).bind ?_
        rintro _ _ ⟨rfl, holds⟩
        refine (leaseEdgeChecks_spec holds _ _ _).bind ?_
        rintro edgeDue _ ⟨due, leased⟩
        exact .of_pure ⟨loaded.domain, loads, not_not.mp unchanged, rfl, due, leased⟩

/-- How the edge phase can end: with the rows as they were, or with the outcomes
applied to the claim that was live when it probed. -/
theorem applyEdgePhase_spec (domainId applicationId : Uuid) (results : EdgeResults) (now : Time) :
    (applyEdgePhase domainId applicationId results now).Returns db fun phase after =>
      match phase with
      | .gone => after = db
      | .discarded => after = db
      | .applied value => ∃ domain, db.Loads domainId domain ∧
          eligibleForEdgeChecks ⟨domain, db.application? domain.applicationId⟩ = true ∧
          claimVersion domain = results.probed ∧
          value = domain.edgeApplied results.certificate results.origin now ∧
          Holds db value after := by
  unfold applyEdgePhase lockApplication
  refine Program.Spec.of_write ?_
  refine (loadDomain_spec domainId db).andThen ?_
  rintro found after ⟨rfl, facts⟩
  cases found with
  | none => exact .of_pure rfl
  | some loaded =>
      obtain ⟨loads, application⟩ := facts loaded rfl
      have holds := Holds.self keyed loads.1
      dsimp only
      split
      next => exact .of_pure rfl
      next applies =>
        rw [not_or, not_not, Bool.not_eq_false] at applies
        refine (applyEdgeOutcomes_spec holds (sound _ loads.1) loads.2.2.1 _ _ now).bind ?_
        rintro _ _ ⟨rfl, holds⟩
        refine .of_pure ⟨loaded.domain, loads, ?_, applies.1, rfl, holds⟩
        rw [← application]
        exact applies.2

omit sound in
theorem recordConnect_spec (application : Application) (plan : ConnectPlan) (now : Time) :
    (recordConnect application plan now).Ensures db fun _ after =>
      ∃ domain ∈ db.domains, domain.id = plan.domainId ∧ domain.isLive = true ∧
        Holds db (domain.connecting (now + fastRecheckInterval) now) after := by
  unfold recordConnect lockApplication
  refine Program.Spec.of_write ?_
  refine ((getDomain_spec application plan.domainId false db).mono (fun _ _ post => post)
    fun _ _ _ => trivial).bind ?_
  rintro domain after ⟨unchanged, member, id, -, excluded | live⟩
  · cases excluded
  rw [unchanged]
  refine .requireThen (fun _ => ?_) fun _ => trivial
  refine (startConnect_spec (Holds.self keyed member) _ now).andThen ?_
  rintro _ after ⟨rfl, holds⟩
  exact (recordEvent_holds holds _ _ _).andThen fun _ after holds =>
    .of_pure ⟨domain, member, id, live, holds⟩

omit sound in
theorem connectReturned_spec (domainId applicationId : Uuid) (now : Time) :
    (connectReturned domainId applicationId now).Returns db fun _ after =>
      after = db ∨ ∃ domain ∈ db.domains, domain.id = domainId ∧ domain.isLive = true ∧
        Holds db (domain.connecting now now) after := by
  unfold connectReturned lockApplication
  refine Program.Spec.of_write ?_
  have stored : ∀ domain, (db.domain? domainId).filter (·.isLive) = some domain →
      db.domain? domain.id = some domain := by
    intro domain found
    rw [Option.filter_eq_some_iff] at found
    rw [(Database.domain?_id found.1).1]
    exact found.1
  refine (selectDomain_spec stored).andThen ?_
  rintro _ after ⟨rfl, rfl⟩
  cases row : (after.domain? domainId).filter (·.isLive) with
  | none => exact .of_pure (.inl rfl)
  | some domain =>
      rw [Option.filter_eq_some_iff] at row
      obtain ⟨id, member⟩ := Database.domain?_id row.1
      dsimp only [Option.map_some]
      split
      next =>
        refine (startConnect_spec (Holds.self keyed member) now now).bind ?_
        rintro _ _ ⟨rfl, holds⟩
        exact .of_pure (.inr ⟨domain, member, id, row.2, holds⟩)
      next => exact .of_pure (.inl rfl)

end Phases

end CustomDomain
