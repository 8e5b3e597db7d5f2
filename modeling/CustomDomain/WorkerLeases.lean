import CustomDomain.WorkerRaces
import CustomDomain.WorkerRuns
import Mathlib.Data.Fintype.Defs

/-!
# Check leases

A lease is the time `next_check_at` of each check row, while a phase of
`process_domain` runs both checks of its kind.  Two workers therefore stay apart
only as long as every lease takes both checks of a kind, nothing moves the times
of leased checks, and no lease is forced on checks another run holds.
-/

namespace CustomDomain.Checks

open Transaction

/-- The checks of a domain come in two kinds, one for each phase. -/
inductive Kind where
  | dns
  | edge
  deriving DecidableEq

instance : Fintype Kind := ⟨{.dns, .edge}, fun kind => by cases kind <;> decide⟩

namespace Kind

def types : Kind → List CheckType
  | .dns => dnsCheckTypes
  | .edge => edgeCheckTypes

/-- Some check of the kind is among the types. -/
def among (kind : Kind) (types : List CheckType) : Bool :=
  types.any fun checkType => decide (checkType ∈ kind.types)

theorem among_of_mem {kind : Kind} {types : List CheckType} {checkType : CheckType}
    (member : checkType ∈ types) (typed : checkType ∈ kind.types) : kind.among types = true :=
  List.any_eq_true.mpr ⟨checkType, member, by simpa using typed⟩

end Kind

namespace Phase

/-- The worker is between the first query or probe of the phase and its
commit. -/
def runs (kind : Kind) (domainId : Uuid) : Phase → Bool
  | .querying run | .owned run _ | .queried run _ _ _ =>
      decide (kind = .dns) && decide (run.domainId = domainId)
  | .probing run _ | .certified run _ _ | .probed run _ _ =>
      decide (kind = .edge) && decide (run.domainId = domainId)
  | _ => false

/-- The worker leased the domain's checks of the kind, for a phase that is not
over. -/
def holds (kind : Kind) (domainId : Uuid) : Phase → Bool
  | .leased id _ types => decide (id = domainId) && kind.among types
  | .querying run | .owned run _ | .queried run _ _ _ =>
      decide (run.domainId = domainId) && (decide (kind = .dns) || run.edgeDue)
  | .between run => decide (run.domainId = domainId) && (decide (kind = .edge) && run.edgeDue)
  | .probing run _ | .certified run _ _ | .probed run _ _ =>
      decide (run.domainId = domainId) && decide (kind = .edge)
  | _ => false

/-- When the worker's run began. -/
def start? : Phase → Option Time
  | .idle => none
  | .begun _ now | .chosen _ now _ | .leased _ now _ => some now
  | .querying run | .owned run _ | .queried run _ _ _ | .between run | .probing run _
  | .certified run _ _ | .probed run _ _ => some run.start

theorem holds_of_runs {phase : Phase} {kind : Kind} {domainId : Uuid}
    (running : phase.runs kind domainId = true) : phase.holds kind domainId = true := by
  cases phase with
  | idle | begun | chosen | leased | between => cases running
  | _ =>
      simp only [runs, holds, Bool.and_eq_true, decide_eq_true_eq] at running ⊢
      simp [running]

end Phase

/-- The checks of these types are not due before `at_`. -/
def HeldUntil (domain : Domain) (types : List CheckType) (at_ : Time) : Prop :=
  ∀ check ∈ domain.checks, check.checkType ∈ types →
    ∃ next, check.nextCheckAt = some next ∧ at_ ≤ next

/-! ## The condition on runs -/

section Conditions

variable {ι : Type}

/-- The kinds of checks whose times an operation moves. -/
def moved : ServiceOp → List (Kind × Uuid)
  | .requestRecheck _ domain _ _ => [(.dns, domain), (.edge, domain)]
  | .recordConnect _ plan _ => [(.dns, plan.domainId)]
  | .connectReturned domain _ _ => [(.dns, domain)]
  | _ => []

/-- One of the operations that run beside the workers, at its own time. -/
def accompanies (clock : Time) : ServiceOp → Bool
  | .requestRecheck _ _ _ now | .recordConnect _ _ now | .connectReturned _ _ now => now = clock
  | _ => false

def Action.accompanies (clock : Time) : Action ι → Bool
  | .service op => Checks.accompanies clock op
  | _ => true

/-- Every run is over before its lease is, and beside the workers there are only
`request_recheck`, `record_connect` and `connect_returned`. -/
def Timely (state : State ι) (action : Action ι) (after : State ι) : Prop :=
  action.accompanies state.clock = true ∧
    ∀ worker, ∀ start ∈ (after.workers worker).start?, after.clock < start + lease

/-- The DNS outcomes the worker is about to apply change the domain's status, so
that it leases edge checks which it does not hold. -/
def State.forces (state : State ι) (worker : ι) (domainId : Uuid) : Bool :=
  match state.workers worker with
  | .queried run ownership routing _ =>
      decide (run.domainId = domainId) && !run.edgeDue &&
        (state.db.domain? domainId).any fun domain =>
          decide (claimVersion domain = claimVersion run.loaded.domain) &&
            decide ((domain.dnsApplied ownership routing state.clock).status ≠ run.statusBefore)
  | _ => false

/-- A lease takes both checks of a kind or none. -/
def TakesWholeKinds (state : State ι) (worker : ι) : Prop :=
  match state.workers worker with
  | .chosen domainId now types =>
      ∀ kind : Kind, kind.among types = true → ∀ row ∈ state.db.domains, row.id = domainId →
        ∀ check ∈ row.checks, check.checkType ∈ kind.types → leasable now types check = true
  | _ => True

/-- The step leaves the checks alone that other runs have leased. -/
def Apart (state : State ι) : Action ι → Prop
  | .lease worker => TakesWholeKinds state worker
  | .applyDns worker => ∀ other, other ≠ worker → ∀ row ∈ state.db.domains,
      state.forces worker row.id = true → (state.workers other).holds .edge row.id = false
  | .service op => ∀ taken ∈ moved op, ∀ worker,
      (state.workers worker).holds taken.1 taken.2 = false
  | _ => True

/-- The condition under which leases exclude. -/
def LeasesApart (state : State ι) (action : Action ι) (after : State ι) : Prop :=
  Timely state action after ∧ Apart state action

section Decisions

variable [Fintype ι] [DecidableEq ι]

instance (state : State ι) (action : Action ι) (after : State ι) :
    Decidable (Timely state action after) :=
  inferInstanceAs (Decidable (_ ∧ _))

instance (state : State ι) (worker : ι) : Decidable (TakesWholeKinds state worker) := by
  unfold TakesWholeKinds
  split <;> infer_instance

instance (state : State ι) (action : Action ι) : Decidable (Apart state action) := by
  unfold Apart
  split <;> infer_instance

instance (state : State ι) (action : Action ι) (after : State ι) :
    Decidable (LeasesApart state action after) :=
  inferInstanceAs (Decidable (_ ∧ _))

end Decisions

end Conditions

/-! ## What scheduling leaves -/

namespace HeldUntil

variable {domain next : Domain} {types : List CheckType} {at_ later : Time}

theorem mono (held : HeldUntil domain types later) (earlier : at_ ≤ later) :
    HeldUntil domain types at_ := by
  intro check member typed
  obtain ⟨time, scheduled, reached⟩ := held check member typed
  exact ⟨time, scheduled, earlier.trans reached⟩

theorem sameChecks (held : HeldUntil domain types at_)
    (same : Domain.SameChecks types domain next) : HeldUntil next types at_ :=
  fun check member typed => held check (same check member typed) typed

/-- Checks that are all selected are held until their new time. -/
theorem scheduled {selects : DomainCheck → Bool}
    (all : ∀ check ∈ domain.checks, check.checkType ∈ types → selects check = true) :
    HeldUntil (domain.scheduled selects at_) types at_ := by
  intro check member typed
  obtain ⟨before, present, rfl⟩ := List.mem_map.mp member
  have sameType : before.checkType ∈ types := by
    split at typed
    next => exact typed
    next => exact typed
  rw [if_pos]
  · exact ⟨at_, rfl, le_rfl⟩
  · refine List.any_eq_true.mpr ⟨before, ?_, by simp⟩
    exact List.mem_filter.mpr ⟨present, all before present sameType⟩

end HeldUntil

/-- Checks of other types than the selected ones stay. -/
theorem scheduled_sameChecks {domain : Domain} {types : List CheckType}
    {selects : DomainCheck → Bool} (at_ : Time)
    (others : ∀ check ∈ domain.checks, selects check = true → check.checkType ∉ types) :
    Domain.SameChecks types domain (domain.scheduled selects at_) := by
  intro check member typed
  obtain ⟨before, present, rfl⟩ := List.mem_map.mp member
  split at typed
  next picked =>
    obtain ⟨selected, inside, sameType⟩ := List.any_eq_true.mp picked
    obtain ⟨stored, taken⟩ := List.mem_filter.mp inside
    have typed : before.checkType ∈ types := typed
    rw [← eq_of_beq sameType] at typed
    exact absurd typed (others selected stored taken)
  next unpicked =>
    rw [if_neg unpicked]
    exact present

theorem zoned_checks (domain : Domain) (zone : Option String) (now : Time) :
    (domain.zoned zone now).checks = domain.checks := by
  unfold Domain.zoned
  split <;> rfl

/-- Domain Connect moves the DNS checks only. -/
theorem connecting_sameChecks (domain : Domain) (at_ now : Time) :
    Domain.SameChecks edgeCheckTypes domain (domain.connecting at_ now) := by
  have started : Domain.SameChecks edgeCheckTypes domain
      { domain with connectStartedAt := some now, updatedAt := now } := .of_eq rfl
  refine started.trans ?_
  unfold Domain.connecting Domain.broughtForward
  generalize ({ domain with connectStartedAt := some now, updatedAt := now } : Domain) = begun
  generalize begun.checks = pending
  induction pending generalizing begun with
  | nil => exact .of_eq rfl
  | cons check pending ih =>
      rw [List.foldl_cons]
      split
      next moves =>
        have other : check.checkType ∉ edgeCheckTypes := by
          have dns := moves.1
          revert dns
          cases check.checkType <;> decide
        refine Domain.SameChecks.trans ?_ (ih _)
        exact begun.updateCheck_sameChecks other fun _ => rfl
      next => exact ih begun

/-! ## The invariant -/

section Leased

variable {ι : Type} [DecidableEq ι] {environment : Environment} {state : State ι}

/-- Leased checks are not due while the run that leased them lasts, and no two
runs have leased the same. -/
structure Leased (state : State ι) : Prop where
  begun : ∀ worker, ∀ start ∈ (state.workers worker).start?, start ≤ state.clock
  held : ∀ worker kind domainId, (state.workers worker).holds kind domainId = true →
    ∀ start ∈ (state.workers worker).start?, ∀ row ∈ state.db.domains, row.id = domainId →
      HeldUntil row kind.types (start + lease)
  alone : ∀ first second kind domainId, (state.workers first).holds kind domainId = true →
    (state.workers second).holds kind domainId = true → first = second

/-- A worker moves on without committing rows and without leasing more. -/
theorem Leased.quiet (leased : Leased state) {worker : ι} {phase : Phase} {seen : List Sighting}
    (begun : ∀ start ∈ phase.start?, start ≤ state.clock)
    (fewer : ∀ kind domainId, phase.holds kind domainId = true →
      (state.workers worker).holds kind domainId = true ∧
        phase.start? = (state.workers worker).start?) :
    Leased (state.advance worker phase state.db seen) := by
  have before : ∀ other kind domainId,
      ((state.advance worker phase state.db seen).workers other).holds kind domainId = true →
      (state.workers other).holds kind domainId = true ∧
        ((state.advance worker phase state.db seen).workers other).start? =
          (state.workers other).start? := by
    intro other kind domainId holds
    simp only [State.advance, Function.update_apply] at holds ⊢
    split_ifs at holds ⊢ with same
    · rw [same]
      exact fewer kind domainId holds
    · exact ⟨holds, rfl⟩
  refine ⟨?_, ?_, ?_⟩
  · intro other start started
    simp only [State.advance, Function.update_apply] at started
    split_ifs at started
    · exact begun start started
    · exact leased.begun other start started
  · intro other kind domainId holds start started
    obtain ⟨held, same⟩ := before other kind domainId holds
    rw [same] at started
    exact leased.held other kind domainId held start started
  · intro first second kind domainId left right
    exact leased.alone first second kind domainId (before first kind domainId left).1
      (before second kind domainId right).1

/-- A worker moves on and commits one domain: what other runs have leased of it
stays, and what the worker leases is held. -/
theorem Leased.commits (leased : Leased state) {worker : ι} {phase : Phase} {next : Domain}
    {rows : Database} (holds : Holds state.db next rows)
    (begun : ∀ start ∈ phase.start?, start ≤ state.clock)
    (others : ∀ other, other ≠ worker → ∀ kind, (state.workers other).holds kind next.id = true →
      ∃ row ∈ state.db.domains, row.id = next.id ∧ Domain.SameChecks kind.types row next)
    (own : ∀ kind domainId, phase.holds kind domainId = true → domainId = next.id ∧
      (∀ start ∈ phase.start?, HeldUntil next kind.types (start + lease)) ∧
      ∀ other, other ≠ worker → (state.workers other).holds kind domainId = false) :
    Leased (state.advance worker phase rows []) := by
  refine ⟨?_, ?_, ?_⟩
  · intro other start started
    simp only [State.advance, Function.update_apply] at started
    split_ifs at started
    · exact begun start started
    · exact leased.begun other start started
  · intro other kind domainId held start started row member id
    have stored : row ∈ rows.domains := member
    simp only [State.advance, Function.update_apply] at held started
    split_ifs at held started with same
    · obtain ⟨rfl, until_, -⟩ := own kind domainId held
      rw [holds.row_eq stored id]
      exact until_ start started
    · rw [holds.domains] at stored
      obtain ⟨before, present, rfl⟩ := List.mem_map.mp stored
      split at id
      next here =>
        rw [if_pos here]
        rw [← id] at held
        obtain ⟨kept, keptMember, keptId, sameChecks⟩ := others other same kind held
        exact (leased.held other kind next.id held start started kept keptMember
          keptId).sameChecks sameChecks
      next elsewhere =>
        rw [if_neg elsewhere]
        exact leased.held other kind domainId held start started before present id
  · intro first second kind domainId left right
    simp only [State.advance, Function.update_apply] at left right
    split_ifs at left right with isFirst isSecond isSecond
    · exact isFirst.trans isSecond.symm
    · exact absurd right (by simp [(own kind domainId left).2.2 second isSecond])
    · exact absurd left (by simp [(own kind domainId right).2.2 first isFirst])
    · exact leased.alone first second kind domainId left right

omit [DecidableEq ι] in
/-- An operation of the service commits one domain: what runs have leased of it
stays. -/
theorem Leased.serves (leased : Leased state) {next : Domain} {rows : Database}
    {issued : List String} (holds : Holds state.db next rows)
    (kept : ∀ worker kind, (state.workers worker).holds kind next.id = true →
      ∃ row ∈ state.db.domains, row.id = next.id ∧ Domain.SameChecks kind.types row next) :
    Leased { state with db := rows, issued := issued } := by
  refine ⟨leased.begun, ?_, leased.alone⟩
  intro worker kind domainId held start started row member id
  have stored : row ∈ rows.domains := member
  rw [holds.domains] at stored
  obtain ⟨before, present, rfl⟩ := List.mem_map.mp stored
  split at id
  next here =>
    rw [if_pos here]
    rw [← id] at held
    obtain ⟨old, oldMember, oldId, same⟩ := kept worker kind held
    exact (leased.held worker kind next.id held start started old oldMember oldId).sameChecks same
  next elsewhere =>
    rw [if_neg elsewhere]
    exact leased.held worker kind domainId held start started before present id

/-! ## Every step keeps it -/

/-- A check of each kind is stored with every domain. -/
theorem exists_typed {domain : Domain} (complete : domain.Complete) (kind : Kind) :
    ∃ check ∈ domain.checks, check.checkType ∈ kind.types := by
  cases kind with
  | dns =>
      obtain ⟨check, member, typed⟩ := complete.exists_check .ownership
      exact ⟨check, member, by rw [typed]; decide⟩
  | edge =>
      obtain ⟨check, member, typed⟩ := complete.exists_check .certificate
      exact ⟨check, member, by rw [typed]; decide⟩

omit [DecidableEq ι] in
/-- What a run has leased, and is not over, nobody else can lease. -/
theorem Leased.refuses (leased : Leased state) {domain : Domain}
    (member : domain ∈ state.db.domains) (complete : domain.Complete) {other : ι} {kind : Kind}
    (intime : ∀ start ∈ (state.workers other).start?, state.clock < start + lease)
    {now : Time} {types : List CheckType} (past : now ≤ state.clock)
    (whole : ∀ check ∈ domain.checks, check.checkType ∈ kind.types →
      leasable now types check = true) :
    (state.workers other).holds kind domain.id = false := by
  by_contra held
  rw [Bool.not_eq_false] at held
  obtain ⟨start, started⟩ : ∃ start, (state.workers other).start? = some start := by
    cases phase : state.workers other with
    | idle | begun | chosen => simp [phase, Phase.holds] at held
    | _ => exact ⟨_, rfl⟩
  obtain ⟨check, present, typed⟩ := exists_typed complete kind
  obtain ⟨next, scheduled, reached⟩ :=
    leased.held other kind domain.id held start started domain member rfl check present typed
  have due := whole check present typed
  simp only [leasable, DomainCheck.due, scheduled, Bool.false_or, Option.all_some,
    Bool.and_eq_true, decide_eq_true_eq] at due
  have late := intime start started
  exact absurd (lt_of_le_of_lt (due.2.trans past) late) (not_lt.mpr reached)

theorem Leased.afterLease (leased : Leased state) (consistent : state.db.Consistent environment)
    {worker : ι} {now : Time} {types : List CheckType} {domain : Domain} {rows : Database}
    (held : state.workers worker = .chosen domain.id now types)
    (member : domain ∈ state.db.domains)
    (holds : Holds state.db (domain.scheduled (leasable now types) (now + lease)) rows)
    (intime : ∀ other, other ≠ worker → ∀ start ∈ (state.workers other).start?,
      state.clock < start + lease)
    (whole : TakesWholeKinds state worker) :
    Leased (state.advance worker (.leased domain.id now types) rows []) := by
  have past : now ≤ state.clock := leased.begun worker now (by rw [held]; rfl)
  simp only [TakesWholeKinds, held] at whole
  have complete := (consistent.sound domain member).complete
  have free : ∀ kind : Kind, kind.among types = true → ∀ other, other ≠ worker →
      (state.workers other).holds kind domain.id = false := fun kind among other different =>
    leased.refuses member complete (intime other different) past
      (whole kind among domain member rfl)
  refine leased.commits holds ?_ ?_ ?_
  · rintro start ⟨⟩
    exact past
  · intro other different kind otherHolds
    refine ⟨domain, member, rfl, scheduled_sameChecks _ fun check present taken typed => ?_⟩
    simp only [leasable, Bool.and_eq_true, decide_eq_true_eq] at taken
    cases (free kind (Kind.among_of_mem taken.1 typed) other different).symm.trans otherHolds
  · intro kind domainId leases
    simp only [Phase.holds, Bool.and_eq_true, decide_eq_true_eq] at leases
    obtain ⟨rfl, among⟩ := leases
    refine ⟨rfl, ?_, free kind among⟩
    rintro start ⟨⟩
    exact .scheduled (whole kind among domain member rfl)

omit [DecidableEq ι] in
/-- The run in the DNS phase is the only one that has leased the DNS checks, and
the edge checks if they were due. -/
theorem Leased.only (leased : Leased state) {worker : ι} {run : Run} {ownership routing : Outcome}
    {zone : Option String} (held : state.workers worker = .queried run ownership routing zone)
    {kind : Kind} (mine : kind = .dns ∨ run.edgeDue = true) {other : ι} (different : other ≠ worker) :
    (state.workers other).holds kind run.domainId = false := by
  by_contra otherHolds
  rw [Bool.not_eq_false] at otherHolds
  refine different (leased.alone other worker kind run.domainId otherHolds ?_)
  rw [held]
  rcases mine with rfl | due
  · simp [Phase.holds]
  · simp [Phase.holds, due]

theorem Leased.afterDiscard (leased : Leased state) {worker : ι} {run : Run}
    {ownership routing : Outcome} {zone : Option String} {domain : Domain} {rows : Database}
    (held : state.workers worker = .queried run ownership routing zone)
    (loads : state.db.Loads run.domainId domain)
    (holds : Holds state.db (domain.scheduled
      (fun check => decide (check.checkType ∈ dnsCheckTypes)) state.clock) rows) :
    Leased (state.advance worker .idle rows []) := by
  refine leased.commits holds (by rintro start ⟨⟩) ?_ (by rintro kind domainId ⟨⟩)
  intro other different kind otherHolds
  rw [show (domain.scheduled _ _).id = run.domainId from loads.2.1] at otherHolds ⊢
  cases kind with
  | dns => cases (leased.only held (.inl rfl) different).symm.trans otherHolds
  | edge =>
      refine ⟨domain, loads.1, loads.2.1, scheduled_sameChecks _ fun check _ taken => ?_⟩
      revert taken
      cases check.checkType <;> decide

theorem Leased.afterDns (leased : Leased state) (keyed : state.db.Keyed) {worker : ι} {run : Run}
    {ownership routing : Outcome} {zone : Option String} {domain value : Domain} {edgeDue : Bool}
    {rows : Database} (held : state.workers worker = .queried run ownership routing zone)
    (loads : state.db.Loads run.domainId domain)
    (own : claimVersion domain = claimVersion run.loaded.domain)
    (result : value = (domain.dnsApplied ownership routing state.clock).zoned zone state.clock)
    (due : edgeDue = true → run.edgeDue = true ∨ value.status ≠ run.statusBefore)
    (holds : Holds state.db (value.edgeLeased run.statusBefore run.edgeDue state.clock) rows)
    (apart : ∀ other, other ≠ worker → ∀ row ∈ state.db.domains,
      state.forces worker row.id = true → (state.workers other).holds .edge row.id = false)
    (application : Option Application) :
    Leased (state.advance worker (.between (run.applied ⟨value, application⟩ edgeDue)) rows []) := by
  have zoned := (domain.dnsApplied ownership routing state.clock).zoned_rescheduled zone state.clock
  rw [← result] at zoned
  have id : value.id = run.domainId :=
    (zoned.id.trans (domain.dnsApplied_alike ownership routing state.clock).id).trans loads.2.1
  have sameId : (value.edgeLeased run.statusBefore run.edgeDue state.clock).id = run.domainId :=
    (value.edgeLeased_rescheduled run.statusBefore run.edgeDue state.clock).id.trans id
  have same : Domain.SameChecks edgeCheckTypes domain value := by
    refine (domain.dnsApplied_sameChecks ownership routing state.clock).trans (.of_eq ?_)
    rw [result, zoned_checks]
  have begun : run.start ≤ state.clock := leased.begun worker run.start (by rw [held]; rfl)
  -- A forced lease is taken only when nobody else holds the edge checks.
  have free : run.edgeDue = false → value.status ≠ run.statusBefore → ∀ other, other ≠ worker →
      (state.workers other).holds .edge run.domainId = false := by
    intro unleased changed other different
    have found : state.db.domain? run.domainId = some domain := by
      rw [← loads.2.1]
      exact keyed.domain?_eq loads.1
    rw [zoned.status] at changed
    have forced : state.forces worker run.domainId = true := by
      simp [State.forces, held, found, unleased, own, changed]
    rw [← loads.2.1] at forced ⊢
    exact apart other different domain loads.1 forced
  refine leased.commits holds (by rintro start ⟨⟩; exact begun) ?_ ?_
  · intro other different kind otherHolds
    rw [sameId] at otherHolds ⊢
    cases kind with
    | dns => cases (leased.only held (.inl rfl) different).symm.trans otherHolds
    | edge =>
        refine ⟨domain, loads.1, loads.2.1, ?_⟩
        unfold Domain.edgeLeased
        split
        next forced =>
          cases (free forced.2 forced.1 other different).symm.trans otherHolds
        next => exact same
  · intro kind domainId leases
    simp only [Phase.holds, Bool.and_eq_true, decide_eq_true_eq] at leases
    obtain ⟨rfl, rfl, taken⟩ := leases
    refine ⟨sameId.symm, ?_, ?_⟩
    · rintro start ⟨⟩
      by_cases leasedBefore : run.edgeDue = true
      · have until_ := leased.held worker .edge run.domainId (by simp [held, Phase.holds, leasedBefore])
          run.start (by rw [held]; rfl) domain loads.1 loads.2.1
        rw [Domain.edgeLeased, if_neg (by simp [leasedBefore])]
        exact until_.sameChecks same
      · have changed := (due taken).resolve_left leasedBefore
        rw [Domain.edgeLeased, if_pos ⟨changed, by simpa using leasedBefore⟩]
        refine (HeldUntil.scheduled fun check _ typed => ?_).mono (add_le_add_left begun lease)
        simpa [Kind.types] using typed
    · intro other different
      by_cases leasedBefore : run.edgeDue = true
      · exact leased.only held (.inr leasedBefore) different
      · exact free (by simpa using leasedBefore) ((due taken).resolve_left leasedBefore) other
          different

theorem Leased.afterEdge (leased : Leased state) {worker : ι} {run : Run}
    {certificate origin : Outcome} {domain : Domain} {rows : Database}
    (held : state.workers worker = .probed run certificate origin)
    (loads : state.db.Loads run.domainId domain)
    (holds : Holds state.db (domain.edgeApplied certificate origin state.clock) rows) :
    Leased (state.advance worker .idle rows []) := by
  have sameId : (domain.edgeApplied certificate origin state.clock).id = run.domainId :=
    (domain.edgeApplied_kept certificate origin state.clock).id.trans loads.2.1
  refine leased.commits holds (by rintro start ⟨⟩) ?_ (by rintro kind domainId ⟨⟩)
  intro other different kind otherHolds
  rw [sameId] at otherHolds ⊢
  cases kind with
  | dns =>
      exact ⟨domain, loads.1, loads.2.1, domain.edgeApplied_sameChecks certificate origin _⟩
  | edge =>
      refine absurd (leased.alone other worker .edge run.domainId otherHolds ?_) different
      simp [held, Phase.holds]

/-- Nothing changed, or the times of one domain's checks moved, of the kinds the
operation moves. -/
def MovesTimes (op : ServiceOp) (db rows : Database) : Prop :=
  rows = db ∨ ∃ domain ∈ db.domains, ∃ next, next.id = domain.id ∧ Holds db next rows ∧
    ∀ kind, (kind, domain.id) ∉ moved op → Domain.SameChecks kind.types domain next

omit [DecidableEq ι] in
theorem accompanying_movesTimes (keyed : state.db.Keyed) {op : ServiceOp}
    (accompanies : accompanies state.clock op = true) :
    MovesTimes op state.db (op.run environment state.db) := by
  suffices spec : (op.program environment).Ensures state.db fun _ rows =>
      MovesTimes op state.db rows from
    Program.Spec.transact (.inl rfl) spec
  cases op with
  | requestRecheck application domainId requestedBy now =>
      refine withApplication_ensures fun application _ _ => ?_
      refine (requestRecheck_spec keyed application domainId requestedBy now).mono ?_
        fun _ _ _ => trivial
      rintro _ after ⟨domain, member, rfl, -, -, -, holds⟩
      refine .inr ⟨domain, member, _, (domain.rechecked_rescheduled now).id, holds, ?_⟩
      intro kind unmoved
      cases kind <;> simp [moved] at unmoved
  | recordConnect application plan now =>
      refine withApplication_ensures fun application _ _ => ?_
      refine (recordConnect_spec keyed application plan now).weaken ?_
      rintro _ after ⟨domain, member, id, -, holds⟩
      refine .inr ⟨domain, member, _, (domain.connecting_rescheduled _ now).id, holds, ?_⟩
      intro kind unmoved
      cases kind with
      | dns => simp [moved, id] at unmoved
      | edge => exact connecting_sameChecks domain _ now
  | connectReturned domainId applicationId now =>
      refine (connectReturned_spec keyed domainId applicationId now).andThen ?_
      rintro _ after (rfl | ⟨domain, member, id, -, holds⟩)
      · exact .of_pure (.inl rfl)
      · refine .of_pure (.inr ⟨domain, member, _, (domain.connecting_rescheduled now now).id,
          holds, ?_⟩)
        intro kind unmoved
        cases kind with
        | dns => simp [moved, id] at unmoved
        | edge => exact connecting_sameChecks domain now now
  | _ => cases accompanies

omit [DecidableEq ι] in
theorem Leased.afterService (leased : Leased state) (keyed : state.db.Keyed) {op : ServiceOp}
    (accompanies : accompanies state.clock op = true)
    (apart : ∀ taken ∈ moved op, ∀ worker,
      (state.workers worker).holds taken.1 taken.2 = false) (issued : List String) :
    Leased { state with db := op.run environment state.db, issued := issued } := by
  rcases accompanying_movesTimes keyed accompanies with same |
    ⟨domain, member, next, id, holds, kept⟩
  · rw [same]
    exact ⟨leased.begun, leased.held, leased.alone⟩
  · refine leased.serves holds fun worker kind held => ⟨domain, member, id.symm, kept kind ?_⟩
    intro taken
    rw [id] at held
    cases (apart _ taken worker).symm.trans held

/-- Every step that meets the condition keeps the invariant. -/
theorem Leased.step {after : State ι} {action : Action ι} (leased : Leased state)
    (consistent : state.db.Consistent environment)
    (moves : Moves environment state action after) (met : LeasesApart state action after) :
    Leased after := by
  obtain ⟨⟨accompanied, intime⟩, apart⟩ := met
  have begun : ∀ {worker : ι} {phase : Phase}, state.workers worker = phase →
      ∀ start ∈ phase.start?, start ≤ state.clock := by
    rintro worker phase rfl start started
    exact leased.begun worker start started
  cases moves with
  | tick later =>
      refine ⟨fun worker start started => ?_, leased.held, leased.alone⟩
      exact (leased.begun worker start started).trans later
  | begin held =>
      refine leased.quiet ?_ (by rintro kind domainId ⟨⟩)
      rintro start ⟨⟩
      exact le_rfl
  | choose held =>
      refine leased.quiet ?_ (by rintro kind domainId ⟨⟩)
      rintro start ⟨⟩
      exact begun held _ rfl
  | lease held member holds =>
      refine leased.afterLease consistent held member holds ?_ apart
      intro other different start started
      refine intime other start ?_
      simpa [State.advance, different] using started
  | loadDns held loads due =>
      refine leased.quiet (fun start started => begun held start started) ?_
      intro kind domainId holds
      refine ⟨?_, by rw [held]; rfl⟩
      rw [held]
      simp only [Phase.holds, beginRun, Bool.and_eq_true, Bool.or_eq_true] at holds ⊢
      refine ⟨holds.1, ?_⟩
      cases kind with
      | dns => exact due
      | edge => exact holds.2.resolve_left (by decide)
  | loadEdge held loads =>
      refine leased.quiet (fun start started => begun held start started) ?_
      intro kind domainId holds
      refine ⟨?_, by rw [held]; rfl⟩
      rw [held]
      simp only [Phase.holds, Bool.and_eq_true, decide_eq_true_eq] at holds ⊢
      obtain ⟨here, rfl, due⟩ := holds
      exact ⟨here, due⟩
  | discardDns held loads holds => exact leased.afterDiscard held loads holds
  | applyDns held loads own result due holds =>
      exact leased.afterDns consistent.keyed held loads own result due holds apart _
  | reload held due =>
      refine leased.quiet (fun start started => begun held start started) ?_
      intro kind domainId holds
      refine ⟨?_, by rw [held]; rfl⟩
      rw [held]
      simp only [Phase.holds, Bool.and_eq_true] at holds ⊢
      exact ⟨holds.1, holds.2, due⟩
  | applyEdge held loads own holds => exact leased.afterEdge held loads holds
  | stop worker => exact leased.quiet (by rintro start ⟨⟩) (by rintro kind domainId ⟨⟩)
  | service external unused =>
      exact leased.afterService consistent.keyed accompanied apart _
  | queryOwnership held | queryRouting held | probeCertificate held | probeOrigin held =>
      refine leased.quiet (fun start started => begun held start started) ?_
      intro kind domainId holds
      rw [held]
      exact ⟨holds, rfl⟩

end Leased

/-! ## Exclusion -/

section Exclusion

variable {ι : Type} [DecidableEq ι] {environment : Environment}

/-- In every run all of whose leases take both checks of a kind or none, while
nobody moves the times of checks that a run has leased or leases them by force,
at most one worker at a time is in the DNS phase of a domain, and at most one in
its edge phase. -/
theorem check_phases_exclusive {start state : State ι}
    (consistent : start.db.Consistent environment) (idle : ∀ worker, start.workers worker = .idle)
    (reaches : Reaches environment LeasesApart start state) (kind : Kind) (domainId : Uuid)
    (first second : ι) (left : (state.workers first).runs kind domainId = true)
    (right : (state.workers second).runs kind domainId = true) : first = second := by
  have begins : Leased start := by
    refine ⟨?_, ?_, ?_⟩
    · intro worker start started
      rw [idle] at started
      cases started
    · intro worker kind domainId held
      rw [idle] at held
      cases held
    · intro first second kind domainId held
      rw [idle] at held
      cases held
  obtain ⟨-, leased⟩ := reaches.keeps Leased consistent begins
    fun consistent moves met leased => leased.step consistent moves met
  exact leased.alone first second kind domainId (Phase.holds_of_runs left)
    (Phase.holds_of_runs right)

end Exclusion

/-- One registered domain, and two workers. -/
def sampleStart : State Bool where
  db := runAll sampleEnvironment
    [.createApplication "acme" "Acme" "edge.example.net" 1,
      .claimDomain 1 "forms.example.com" "workspace" ⟨2, 3, "token"⟩ 0] {}
  clock := 0
  workers := fun _ => .idle

theorem sampleStart_consistent : sampleStart.db.Consistent sampleEnvironment :=
  (Database.consistent_empty sampleEnvironment).runAll _

/-- The first worker is in the DNS phase when the second one looks. -/
def leasedActions : List (Action Bool) :=
  [.begin true 2, .choose true, .lease true, .load true, .begin false 2, .choose false]

theorem check_phases_exclusive_leased :
    ∃ state, GuardedRuns.follow (State.perform sampleEnvironment) LeasesApart sampleStart
        leasedActions = some state ∧
      (state.workers true).runs .dns 2 = true ∧
      ∀ worker, (state.workers worker).runs .dns 2 = true → worker = true := by
  have ran : (GuardedRuns.follow (State.perform sampleEnvironment) LeasesApart sampleStart
      leasedActions).isSome = true := by decide +kernel
  obtain ⟨state, followed⟩ := Option.isSome_iff_exists.mp ran
  have running : (GuardedRuns.follow (State.perform sampleEnvironment) LeasesApart sampleStart
      leasedActions).map (fun state => (state.workers true).runs .dns 2) = some true := by
    decide +kernel
  rw [followed, Option.map_some, Option.some.injEq] at running
  refine ⟨state, followed, running, fun worker also => ?_⟩
  exact check_phases_exclusive sampleStart_consistent (fun _ => rfl)
    (GuardedRuns.Reaches.of_follow .start followed) .dns 2 worker true also running

/-- A recheck is requested while the first worker is in the DNS phase, so that
the second one leases the checks as well. -/
def recheckedActions : List (Action Bool) :=
  [.begin true 2, .choose true, .lease true, .load true,
    .service (.requestRecheck 1 2 "api" 0), .begin false 2, .choose false, .lease false,
    .load false]

theorem check_phases_overlap :
    sampleStart.db.Consistent sampleEnvironment ∧
      (∀ worker, (sampleStart.workers worker).start? = none) ∧
      ∃ state, Reaches sampleEnvironment Timely sampleStart state ∧
        (state.workers true).runs .dns 2 = true ∧ (state.workers false).runs .dns 2 = true := by
  have ran : (GuardedRuns.follow (State.perform sampleEnvironment) Timely sampleStart
      recheckedActions).isSome = true := by decide +kernel
  obtain ⟨state, followed⟩ := Option.isSome_iff_exists.mp ran
  have running : (GuardedRuns.follow (State.perform sampleEnvironment) Timely sampleStart
      recheckedActions).map (fun state =>
        ((state.workers true).runs .dns 2, (state.workers false).runs .dns 2)) =
      some (true, true) := by decide +kernel
  rw [followed, Option.map_some, Option.some.injEq, Prod.mk.injEq] at running
  exact ⟨sampleStart_consistent, fun _ => rfl, state,
    GuardedRuns.Reaches.of_follow .start followed, running.1, running.2⟩

end CustomDomain.Checks
