import CustomDomain.PublishedRecords
import CustomDomain.WorkerClaims

/-!
# The way to readiness

One run of `process_domain`, step by step, beside anything that leaves the domain's row, its
application and the origin that serves it alone: the run never gets stuck, and it ends with a ready
domain.
-/

namespace CustomDomain

open Transaction

/-! ## What the transactions of a run come to -/

namespace Domain

/-- The types of the checks that are due. -/
def dueTypes (domain : Domain) (now : Time) : List CheckType :=
  (domain.checks.filter (·.due now)).map (·.checkType)

/-- A run with these checks gets to the edge phase once both DNS checks pass. -/
def ripe (domain : Domain) (types : List CheckType) : Bool :=
  (types.any fun checkType => decide (checkType ∈ dnsCheckTypes)) &&
    ((types.any fun checkType => decide (checkType ∈ edgeCheckTypes)) ||
      decide (domain.status = .pendingDns ∨ domain.status = .suspended))

end Domain

section Statements

variable {base db : Database} {domain : Domain} (holds : Holds base domain db)

include holds

/-- A lease says whether it took a check. -/
theorem setNextCheck_takes (selects : DomainCheck → Bool) (at_ : Time) :
    (setNextCheck domain.id selects at_).Returns db fun taken after =>
      taken = domain.checks.any selects ∧ Holds base (domain.scheduled selects at_) after := by
  have rows : (setNextCheck domain.id selects at_).Returns db fun taken _ =>
      taken = domain.checks.any selects := by
    refine Program.Spec.of_write (.of_pure ?_)
    rw [selectedChecks_eq holds]
    cases taken : domain.checks.any selects with
    | true =>
        obtain ⟨check, member, selected⟩ := List.any_eq_true.mp taken
        have inside : check ∈ domain.checks.filter selects := List.mem_filter.mpr ⟨member, selected⟩
        cases filtered : domain.checks.filter selects with
        | nil => rw [filtered] at inside; cases inside
        | cons _ _ => rfl
    | false =>
        have none : domain.checks.filter selects = [] :=
          List.filter_eq_nil_iff.mpr fun check member => List.any_eq_false.mp taken check member
        rw [none]
        rfl
  exact (rows.and (setNextCheck_spec holds selects at_)).mono (fun _ _ both => both)
    fun _ _ both => both.1

/-- After a status change the edge checks are leased. -/
theorem leaseEdgeChecks_takes (complete : domain.Complete) {statusBefore : DomainStatus}
    {edgeDue : Bool} (wanted : edgeDue = true ∨ domain.status ≠ statusBefore) (now : Time) :
    (leaseEdgeChecks domain statusBefore edgeDue now).Returns db fun due after =>
      due = true ∧ Holds base (domain.edgeLeased statusBefore edgeDue now) after := by
  unfold leaseEdgeChecks Domain.edgeLeased
  split
  next changed =>
    refine (setNextCheck_takes holds _ _).weaken fun taken after => ?_
    rintro ⟨rfl, leased⟩
    refine ⟨?_, leased⟩
    obtain ⟨check, member, type⟩ := complete.exists_check .certificate
    exact List.any_eq_true.mpr ⟨check, member, by simp [type, edgeCheckTypes]⟩
  next unchanged =>
    refine .of_pure ⟨?_, holds⟩
    rcases wanted with due | changed
    · exact due
    · cases edgeDue with
      | true => rfl
      | false => exact absurd ⟨changed, rfl⟩ unchanged

end Statements

section Phases

variable {db : Database} (keyed : db.Keyed) {domain : Domain} (stored : domain ∈ db.domains)
  (live : domain.isLive = true)

include keyed stored live

theorem loadDomain_stored (open_ : domain.status ≠ .deleting) :
    (loadDomain domain.id).Returns db fun found after => after = db ∧
      found = some ⟨domain, db.application? domain.applicationId⟩ := by
  have found := (loadDomain_found domain.id db).and (loadDomain_spec domain.id db)
  refine found.mono ?_ fun _ _ both => both.1
  rintro loaded after ⟨⟨unchanged, row⟩, -, facts⟩
  refine ⟨unchanged, ?_⟩
  rw [keyed.domain?_eq stored, Option.filter_some, if_pos live, Option.filter_some,
    if_pos (by simpa using open_)] at row
  cases loaded with
  | none => cases row
  | some loaded =>
      have same : loaded.domain = domain := Option.some.inj row
      have owner := (facts loaded rfl).2
      rw [same] at owner
      rw [← owner, ← same]

theorem applyDnsPhase_applies (sound : domain.Sound) (applicationId : Uuid) (results : DnsResults)
    (now : Time) (own : claimVersion domain = results.queried)
    (wanted : results.edgeDue = true ∨
      (domain.dnsApplied results.ownership results.routing now).status ≠ results.statusBefore) :
    (applyDnsPhase domain.id applicationId results now).Returns db fun phase after =>
      phase = .applied ((domain.dnsApplied results.ownership results.routing now).zoned results.zone now)
        true ∧
      Holds db (((domain.dnsApplied results.ownership results.routing now).zoned results.zone
        now).edgeLeased results.statusBefore results.edgeDue now) after := by
  unfold applyDnsPhase lockApplication
  refine Program.Spec.of_write ?_
  refine (loadDomain_stored keyed stored live (sound.live live).1).bind ?_
  rintro _ after ⟨rfl, rfl⟩
  have holds := Holds.self keyed stored
  dsimp only
  rw [if_neg (not_not.mpr own)]
  refine (applyDnsOutcomes_spec holds sound live _ _ now).bind ?_
  rintro _ _ ⟨rfl, holds⟩
  refine (storeZone_spec holds _ _).bind ?_
  rintro _ _ ⟨rfl, holds⟩
  have zoned := (domain.dnsApplied results.ownership results.routing now).zoned_rescheduled results.zone
    now
  have complete := (zoned.sound (sound.dnsApplied live results.ownership results.routing now)).complete
  refine (leaseEdgeChecks_takes holds complete ?_ now).bind ?_
  · rwa [zoned.status]
  · rintro _ _ ⟨rfl, leased⟩
    exact .of_pure ⟨rfl, leased⟩

theorem applyEdgePhase_applies (sound : domain.Sound) (applicationId : Uuid) (results : EdgeResults)
    (now : Time) (own : claimVersion domain = results.probed)
    (eligible : eligibleForEdgeChecks (domain.loaded db) = true) :
    (applyEdgePhase domain.id applicationId results now).Returns db fun phase after =>
      phase = .applied (domain.edgeApplied results.certificate results.origin now) ∧
      Holds db (domain.edgeApplied results.certificate results.origin now) after := by
  unfold applyEdgePhase lockApplication
  refine Program.Spec.of_write ?_
  refine (loadDomain_stored keyed stored live (sound.live live).1).bind ?_
  rintro _ after ⟨rfl, rfl⟩
  dsimp only
  have applies : ¬ (claimVersion domain ≠ results.probed ∨
      eligibleForEdgeChecks (domain.loaded after) = false) := by
    rw [not_or, not_not, Bool.not_eq_false]
    exact ⟨own, eligible⟩
  rw [Domain.loaded] at applies
  rw [if_neg applies]
  refine (applyEdgeOutcomes_spec (Holds.self keyed stored) sound live _ _ now).bind ?_
  rintro _ _ ⟨rfl, holds⟩
  exact .of_pure ⟨rfl, holds⟩

end Phases

theorem Domain.Proven.rescheduled {first second : Domain} (proven : first.Proven)
    (same : first.Rescheduled second) : second.Proven where
  status := by rw [same.status]; exact proven.status
  verified := by rw [same.activeClaim]; exact proven.verified
  ownership := by rw [same.snapshot_checks]; exact proven.ownership
  routing := by rw [same.snapshot_checks]; exact proven.routing

/-! ## Where a run stands -/

namespace Checks

/-- The run loaded the row as it is stored. -/
structure Run.Reads (run : Run) (row : Domain) (application : Application) : Prop where
  domainId : run.domainId = row.id
  loaded : run.loaded = ⟨row, some application⟩
  statusBefore : run.statusBefore = row.status
  wanted : run.edgeDue = true ∨ row.status = .pendingDns ∨ row.status = .suspended

/-- The run holds the row as it is stored, up to the times of its checks, and both DNS checks passed. -/
structure Run.Carries (run : Run) (row : Domain) (application : Application) : Prop where
  domainId : run.domainId = row.id
  domain : run.loaded.domain.Rescheduled row
  application : run.loaded.application = some application
  proven : row.Proven

/-- What is known in each phase of a run that is on its way. -/
def Phase.OnWay (row : Domain) (application : Application) (origin : VerifiedOrigin) : Phase → Prop
  | .idle => row.IsReady
  | .begun id now => id = row.id ∧ row.ripe (row.dueTypes now) = true
  | .chosen id now types => id = row.id ∧ types = row.dueTypes now ∧ row.ripe types = true
  | .leased id _ types => id = row.id ∧ row.ripe types = true
  | .querying run => run.Reads row application
  | .owned run ownership => run.Reads row application ∧ ownership.passing = true
  | .queried run ownership routing _ =>
      run.Reads row application ∧ ownership.passing = true ∧ routing.passing = true
  | .between run => run.Carries row application ∧ run.edgeDue = true
  | .probing run serving => run.Carries row application ∧ serving = some origin
  | .certified run serving certificate =>
      run.Carries row application ∧ serving = some origin ∧ certificate.passing = true
  | .probed run certificate served =>
      run.Carries row application ∧ certificate.passing = true ∧ served.passing = true

/-- How many steps a run that gets through has to go. -/
def Phase.stepsLeft : Phase → Nat
  | .idle => 0
  | .begun _ _ => 10
  | .chosen _ _ _ => 9
  | .leased _ _ _ => 8
  | .querying _ => 7
  | .owned _ _ => 6
  | .queried _ _ _ _ => 5
  | .between _ => 4
  | .probing _ _ => 3
  | .certified _ _ _ => 2
  | .probed _ _ _ => 1

section Going

variable {ι : Type} {worker : ι} {domain : Domain} {application : Application}
  {origin : VerifiedOrigin} {environment : Environment} {state : State ι}

/-- The worker's run is on its way to a ready domain. -/
structure Going (worker : ι) (domain : Domain) (application : Application) (origin : VerifiedOrigin)
    (state : State ι) (row : Domain) : Prop where
  stored : row ∈ state.db.domains
  alike : domain.Alike row
  live : row.isLive = true
  owner : state.db.application? row.applicationId = some application
  serving : servingOrigin state.db application = some origin
  phase : (state.workers worker).OnWay row application origin

/-- The worker has made a step of its run. -/
def Advances (worker : ι) (domain : Domain) (application : Application) (origin : VerifiedOrigin)
    (state after : State ι) : Prop :=
  (∃ row, Going worker domain application origin after row) ∧
    (after.workers worker).stepsLeft + 1 = (state.workers worker).stepsLeft

variable [DecidableEq ι]

omit [DecidableEq ι] in
theorem servingOrigin_congr {first second : Database} (same : second.origins = first.origins)
    (application : Application) : servingOrigin second application = servingOrigin first application := by
  rw [servingOrigin, servingOrigin, same]

omit [DecidableEq ι] in
theorem application?_congr {first second : Database} (same : second.applications = first.applications)
    (id : Uuid) : second.application? id = first.application? id := by
  rw [Database.application?, Database.application?, same]

/-- A step that leaves the rows alone. -/
theorem Going.quiet {row : Domain} (going : Going worker domain application origin state row)
    {phase : Phase} {seen : List Sighting} (onWay : phase.OnWay row application origin)
    (left : phase.stepsLeft + 1 = (state.workers worker).stepsLeft) :
    Advances worker domain application origin state (state.advance worker phase state.db seen) := by
  have moved : (state.advance worker phase state.db seen).workers worker = phase :=
    Function.update_self _ _ _
  exact ⟨⟨row, going.stored, going.alike, going.live, going.owner, going.serving, by rwa [moved]⟩,
    by rwa [moved]⟩

/-- A step that commits the domain's row. -/
theorem Going.commits {row next : Domain} (going : Going worker domain application origin state row)
    {phase : Phase} {rows : Database} (alike : row.Alike next) (live : next.isLive = true)
    (holds : Holds state.db next rows) (onWay : phase.OnWay next application origin)
    (left : phase.stepsLeft + 1 = (state.workers worker).stepsLeft) :
    Advances worker domain application origin state (state.advance worker phase rows []) := by
  have moved : (state.advance worker phase rows []).workers worker = phase :=
    Function.update_self _ _ _
  refine ⟨⟨next, holds.mem, going.alike.trans alike, live, ?_, ?_, by rwa [moved]⟩, by rwa [moved]⟩
  · rw [alike.applicationId, ← going.owner]
    exact application?_congr holds.setup.applications _
  · rw [← going.serving]
    exact servingOrigin_congr holds.setup.origins _

variable {row : Domain} (going : Going worker domain application origin state row)
  (keyed : state.db.Keyed)

include going keyed

theorem Going.choose {now : Time} {id : Uuid} (held : state.workers worker = .begun id now) :
    ∃ after, state.choose worker = some after ∧
      Advances worker domain application origin state after := by
  have phase := going.phase
  rw [held] at phase
  obtain ⟨rfl, ripe⟩ := phase
  have chosen : (dueCheckTypes row.id now).run state.db = (.ok (row.dueTypes now), state.db) := by
    have rows : selectedChecks state.db row.id (·.due now) = row.checks.filter (·.due now) :=
      selectedChecks_eq (Holds.self keyed going.stored) _
    rw [dueCheckTypes, Program.run_read, rows, Domain.dueTypes]
  cases types : row.dueTypes now with
  | nil =>
      rw [types] at ripe
      cases ripe
  | cons checkType rest =>
      rw [types] at chosen ripe
      have advances : Advances worker domain application origin state
          (state.advance worker (.chosen row.id now (checkType :: rest)) state.db []) :=
        going.quiet ⟨rfl, types.symm, ripe⟩ (by rw [held]; rfl)
      exact ⟨_, by simp only [State.choose, held, chosen], advances⟩

theorem Going.lease {now : Time} {id : Uuid} {types : List CheckType}
    (held : state.workers worker = .chosen id now types) :
    ∃ after, state.lease worker = some after ∧
      Advances worker domain application origin state after := by
  have phase := going.phase
  rw [held] at phase
  obtain ⟨rfl, rfl, ripe⟩ := phase
  have holds := Holds.self keyed going.stored
  have spec := setNextCheck_takes holds (leasable now (row.dueTypes now)) (now + CustomDomain.lease)
  obtain ⟨taken, rows, ran⟩ := spec.returns
  obtain ⟨rfl, leased⟩ := spec.result ran
  have some_ : row.checks.any (leasable now (row.dueTypes now)) = true := by
    obtain ⟨checkType, member, -⟩ := List.any_eq_true.mp (Bool.and_eq_true_iff.mp ripe).1
    obtain ⟨check, due, rfl⟩ := List.mem_map.mp member
    refine List.any_eq_true.mpr ⟨check, (List.mem_filter.mp due).1, ?_⟩
    simp [leasable, (List.mem_filter.mp due).2, member]
  rw [some_] at ran
  have same := row.scheduled_rescheduled (leasable now (row.dueTypes now)) (now + CustomDomain.lease)
  have advances : Advances worker domain application origin state
      (state.advance worker (.leased row.id now (row.dueTypes now)) rows []) := by
    refine going.commits same.alike (same.isLive.trans going.live) leased ⟨same.id.symm, ?_⟩
      (by rw [held]; rfl)
    rw [Domain.ripe, same.status]
    exact ripe
  refine ⟨_, ?_, advances⟩
  change (leaseDomain row.id now (row.dueTypes now) false).run state.db = _ at ran
  simp only [State.lease, held, ran]

theorem Going.load (sound : row.Sound) {now : Time} {id : Uuid} {types : List CheckType}
    (held : state.workers worker = .leased id now types) :
    ∃ after, state.load worker = some after ∧
      Advances worker domain application origin state after := by
  have phase := going.phase
  rw [held] at phase
  obtain ⟨rfl, ripe⟩ := phase
  have spec := loadDomain_stored keyed going.stored going.live (sound.live going.live).1
  obtain ⟨found, rows, ran⟩ := spec.returns
  obtain ⟨rfl, rfl⟩ := spec.result ran
  rw [going.owner] at ran
  rw [Domain.ripe, Bool.and_eq_true, Bool.or_eq_true, decide_eq_true_eq] at ripe
  have advances : Advances worker domain application origin state
      (state.advance worker (.querying (beginRun row.id now types ⟨row, some application⟩)) state.db []) :=
    going.quiet ⟨rfl, rfl, rfl, ripe.2⟩ (by rw [held]; rfl)
  refine ⟨_, ?_, advances⟩
  simp only [State.load, held, ran]
  rw [if_pos ripe.1]

omit keyed in
theorem Going.queryOwnership (sound : row.Sound) {run : Run} (held : state.workers worker = .querying run)
    {resolver : Resolver} (published : row.publishedTo resolver = true) :
    ∃ after, state.perform environment (.queryOwnership worker resolver) = some after ∧
      Advances worker domain application origin state after := by
  have phase := going.phase
  rw [held] at phase
  obtain ⟨claim, -, active⟩ := sound.activeClaim going.live
  have passing := ((publishedTo_iff active).mp published).1
  refine ⟨_, by simp only [State.perform, held]; rfl, ?_⟩
  refine going.quiet ⟨⟨phase.domainId, phase.loaded, phase.statusBefore, phase.wanted⟩, ?_⟩
    (by rw [held]; rfl)
  rw [phase.loaded]
  exact passing

omit keyed in
theorem Going.queryRouting (sound : row.Sound) {run : Run} {ownership : Outcome}
    (held : state.workers worker = .owned run ownership) {resolver : Resolver}
    (published : row.publishedTo resolver = true) (zone : Option String) :
    ∃ after, state.perform environment (.queryRouting worker resolver zone) = some after ∧
      Advances worker domain application origin state after := by
  have phase := going.phase
  rw [held] at phase
  obtain ⟨reads, owned⟩ := phase
  obtain ⟨claim, -, active⟩ := sound.activeClaim going.live
  have passing := ((publishedTo_iff active).mp published).2
  refine ⟨_, by simp only [State.perform, held]; rfl, ?_⟩
  refine going.quiet ⟨⟨reads.domainId, reads.loaded, reads.statusBefore, reads.wanted⟩, owned, ?_⟩
    (by rw [held]; rfl)
  rw [reads.loaded]
  exact passing

theorem Going.applyDns (sound : row.Sound) {run : Run} {ownership routing : Outcome}
    {zone : Option String} (held : state.workers worker = .queried run ownership routing zone) :
    ∃ after, state.applyDns worker = some after ∧
      Advances worker domain application origin state after := by
  have phase := going.phase
  rw [held] at phase
  obtain ⟨reads, owned, routed⟩ := phase
  obtain ⟨proven, moves⟩ := Domain.dnsApplied_proven sound going.live owned routed state.clock
  have wanted : run.edgeDue = true ∨
      (row.dnsApplied ownership routing state.clock).status ≠ run.statusBefore := by
    rw [reads.statusBefore]
    exact reads.wanted.imp id moves
  have own : claimVersion row = claimVersion run.loaded.domain := by rw [reads.loaded]
  have spec := applyDnsPhase_applies keyed going.stored going.live sound run.applicationId
    (run.dnsResults ownership routing zone) state.clock own wanted
  obtain ⟨phase, rows, ran⟩ := spec.returns
  obtain ⟨rfl, holds⟩ := spec.result ran
  rw [← reads.domainId] at ran
  have zoned := (row.dnsApplied ownership routing state.clock).zoned_rescheduled zone state.clock
  have leased := ((row.dnsApplied ownership routing state.clock).zoned zone
    state.clock).edgeLeased_rescheduled run.statusBefore run.edgeDue state.clock
  have applied := row.dnsApplied_alike ownership routing state.clock
  have owner : state.db.application? ((row.dnsApplied ownership routing state.clock).zoned zone
      state.clock).applicationId = some application := by
    rw [zoned.applicationId, applied.applicationId, going.owner]
  have advances : Advances worker domain application origin state
      (state.advance worker (.between (run.applied ⟨(row.dnsApplied ownership routing state.clock).zoned
        zone state.clock, some application⟩ true)) rows []) := by
    refine going.commits (applied.trans (zoned.trans leased).alike) ?_ holds
      ⟨⟨?_, leased, rfl, proven.rescheduled (zoned.trans leased)⟩, rfl⟩ (by rw [held]; rfl)
    · rw [(zoned.trans leased).isLive, Domain.dnsApplied_isLive, going.live]
    · exact reads.domainId.trans (applied.trans (zoned.trans leased).alike).id.symm
  refine ⟨_, ?_, advances⟩
  simp only [State.applyDns, held, ran]
  rw [← owner]
  rfl

omit going keyed [DecidableEq ι] in
/-- A proven domain of an active application may go through the edge phase. -/
theorem eligible_of_proven {row : Domain} (live : row.isLive = true) (proven : row.Proven)
    (active : application.status = .active) : eligibleForEdgeChecks ⟨row, some application⟩ = true := by
  rw [eligibleForEdgeChecks, certificateAuthorized_eq_routable, routable, live, proven.verified,
    decide_eq_true proven.status, Option.map_some, active]
  rfl

omit keyed in
theorem Going.reload (active : application.status = .active) (sound : row.Sound)
    (found : state.db.domain? row.id = some row) {run : Run}
    (held : state.workers worker = .between run) :
    ∃ after, state.reload worker = some after ∧
      Advances worker domain application origin state after := by
  have phase := going.phase
  rw [held] at phase
  obtain ⟨carries, due⟩ := phase
  have loadedProven : run.loaded.domain.Proven := by
    have same := carries.domain
    refine ⟨?_, ?_, ?_, ?_⟩
    · rw [← same.status]
      exact carries.proven.status
    · rw [← same.activeClaim]
      exact carries.proven.verified
    · rw [← same.snapshot_checks]
      exact carries.proven.ownership
    · rw [← same.snapshot_checks]
      exact carries.proven.routing
  have loadedLive : run.loaded.domain.isLive = true := carries.domain.isLive.symm.trans going.live
  have eligible : eligibleForEdgeChecks run.loaded = true := by
    have shape : run.loaded = ⟨run.loaded.domain, some application⟩ := by rw [← carries.application]
    rw [shape]
    exact eligible_of_proven loadedLive loadedProven active
  have open_ : run.loaded.domain.status ≠ .deleting := by
    rw [← carries.domain.status]
    exact (sound.live going.live).1
  have stored : ((state.db.domain? run.domainId).any (·.isLive)) = true := by
    rw [carries.domainId, found]
    exact going.live
  have serving : run.loaded.application.bind (servingOrigin state.db) = some origin := by
    rw [carries.application]
    exact going.serving
  have advances : Advances worker domain application origin state (state.advance worker
      (.probing run (run.loaded.application.bind (servingOrigin state.db))) state.db []) :=
    going.quiet ⟨carries, serving⟩ (by rw [held]; rfl)
  refine ⟨_, ?_, advances⟩
  simp only [State.reload, held]
  exact if_pos ⟨stored, open_, due, eligible⟩

omit keyed in
theorem Going.probeCertificate {run : Run} {serving : Option VerifiedOrigin}
    (held : state.workers worker = .probing run serving) {prober : Prober}
    (certified : prober.certifies state.clock = true) :
    ∃ after, state.perform environment (.probeCertificate worker prober) = some after ∧
      Advances worker domain application origin state after := by
  have phase := going.phase
  rw [held] at phase
  obtain ⟨carries, serves⟩ := phase
  refine ⟨_, by simp only [State.perform, held]; rfl, ?_⟩
  refine going.quiet ⟨⟨carries.domainId, carries.domain, carries.application, carries.proven⟩, serves, ?_⟩
    (by rw [held]; rfl)
  rw [certificateOutcome_passing_eq]
  exact certified

omit keyed in
theorem Going.probeOrigin {run : Run} {serving : Option VerifiedOrigin} {certificate : Outcome}
    (held : state.workers worker = .certified run serving certificate) {prober : Prober}
    (serves : prober.serves row application = true) :
    ∃ after, state.perform environment (.probeOrigin worker prober) = some after ∧
      Advances worker domain application origin state after := by
  have phase := going.phase
  rw [held] at phase
  obtain ⟨carries, rfl, certified⟩ := phase
  have same : prober.serves run.loaded.domain application = prober.serves row application := by
    have asked : ∀ probe : WorkspaceProbe, probe.serves run.loaded.domain = probe.serves row := by
      intro probe
      funext reference
      rw [WorkspaceProbe.serves, WorkspaceProbe.serves, carries.domain.reference,
        carries.domain.applicationId]
    unfold Prober.serves
    simp only [asked]
  refine ⟨_, by simp only [State.perform, held]; rfl, ?_⟩
  refine going.quiet ⟨⟨carries.domainId, carries.domain, carries.application, carries.proven⟩, certified, ?_⟩
    (by rw [held]; rfl)
  rw [carries.application, originOutcome_passing_eq, same]
  exact serves

theorem Going.applyEdge (active : application.status = .active) (sound : row.Sound) {run : Run}
    {certificate served : Outcome} (held : state.workers worker = .probed run certificate served) :
    ∃ after, state.applyEdge worker = some after ∧
      Advances worker domain application origin state after := by
  have phase := going.phase
  rw [held] at phase
  obtain ⟨carries, certified, passing⟩ := phase
  have own : claimVersion row = claimVersion run.loaded.domain := by
    rw [claimVersion_eq, claimVersion_eq, carries.domain.activeClaim]
  have eligible : eligibleForEdgeChecks (row.loaded state.db) = true := by
    rw [Domain.loaded, going.owner]
    exact eligible_of_proven going.live carries.proven active
  have spec := applyEdgePhase_applies keyed going.stored going.live sound run.applicationId
    (run.edgeResults certificate served) state.clock own eligible
  obtain ⟨phase, rows, ran⟩ := spec.returns
  obtain ⟨rfl, holds⟩ := spec.result ran
  rw [← carries.domainId] at ran
  have kept := row.edgeApplied_kept certificate served state.clock
  have advances : Advances worker domain application origin state
      (state.advance worker .idle rows []) :=
    going.commits kept.alike (kept.isLive.trans going.live) holds
      (Domain.edgeApplied_ready sound carries.proven certified passing state.clock) (by rw [held]; rfl)
  exact ⟨_, by simp only [State.applyEdge, held, ran], advances⟩

end Going

/-! ## Runs -/

section Runs

variable {ι : Type}

/-- The worker an action is of. -/
def Action.worker? : Action ι → Option ι
  | .tick _ | .service _ => none
  | .begin worker _ | .choose worker | .lease worker | .load worker | .queryOwnership worker _
  | .queryRouting worker _ _ | .applyDns worker | .reload worker | .probeCertificate worker _
  | .probeOrigin worker _ | .applyEdge worker | .crash worker => some worker

/-- The step of a run that is not broken off, whose queries find the records and whose probes succeed. -/
def Helped (domain : Domain) (application : Application) (state : State ι) : Action ι → Prop
  | .begin _ _ | .crash _ => False
  | .queryOwnership _ resolver | .queryRouting _ resolver _ =>
      ∀ row ∈ state.db.domains, row.id = domain.id → row.publishedTo resolver = true
  | .probeCertificate _ prober => prober.certifies state.clock = true
  | .probeOrigin _ prober =>
      ∀ row ∈ state.db.domains, row.id = domain.id → prober.serves row application = true
  | _ => True

/-- The worker is helped, and the others leave what its run is about alone. -/
def Undisturbed [DecidableEq ι] (worker : ι) (domain : Domain) (application : Application)
    (state : State ι) (action : Action ι) (after : State ι) : Prop :=
  if action.worker? = some worker then Helped domain application state action
  else after.db.domain? domain.id = state.db.domain? domain.id ∧
    after.db.application? application.id = state.db.application? application.id ∧
    servingOrigin after.db application = servingOrigin state.db application

variable [DecidableEq ι] {environment : Environment} {state after : State ι} {worker : ι}
  {domain : Domain} {application : Application} {origin : VerifiedOrigin} {row : Domain}

theorem advance_other {other : ι} (different : other ≠ worker) (phase : Phase) (db : Database)
    (seen : List Sighting) : (state.advance other phase db seen).workers worker = state.workers worker :=
  Function.update_of_ne (Ne.symm different) _ _

/-- A worker's phase changes by its own actions only. -/
theorem perform_other {action : Action ι} (performed : state.perform environment action = some after)
    (other : action.worker? ≠ some worker) : after.workers worker = state.workers worker := by
  have different : ∀ {acting : ι}, some acting ≠ some worker → acting ≠ worker :=
    fun differs same => differs (congrArg some same)
  cases action with
  | tick at_ =>
      simp only [State.perform] at performed
      split at performed
      next => cases performed; rfl
      next => cases performed
  | service op =>
      simp only [State.perform, State.serve] at performed
      split at performed
      next => cases performed; rfl
      next => cases performed
  | begin acting _ | queryOwnership acting _ | queryRouting acting _ _ | probeCertificate acting _
  | probeOrigin acting _ =>
      simp only [State.perform] at performed
      split at performed
      next => cases performed; exact advance_other (different other) _ _ _
      next => cases performed
  | choose acting | lease acting | load acting | applyDns acting | reload acting | applyEdge acting =>
      simp only [State.perform, State.choose, State.lease, State.load, State.applyDns, State.reload,
        State.applyEdge] at performed
      split at performed
      next => split at performed <;> · cases performed; exact advance_other (different other) _ _ _
      next => cases performed
  | crash acting =>
      cases performed
      exact advance_other (different other) _ _ _

section Steps

variable (going : Going worker domain application origin state row)
  (consistent : state.db.Consistent environment) (active : application.status = .active)

include going consistent active

/-- A step of the worker's own brings its run on. -/
theorem Going.own {action : Action ι} (performed : state.perform environment action = some after)
    (own : action.worker? = some worker) (helped : Helped domain application state action) :
    Advances worker domain application origin state after := by
  have keyed := consistent.keyed
  have sound := consistent.sound row going.stored
  have same : ∀ {result : Option (State ι)}, result = state.perform environment action →
      (∃ next, result = some next ∧ Advances worker domain application origin state next) →
      Advances worker domain application origin state after := by
    rintro result rfl ⟨next, ran, advances⟩
    cases ran.symm.trans performed
    exact advances
  have again := performed
  cases action with
  | tick _ | service _ => cases own
  | begin _ _ | crash _ => exact helped.elim
  | choose acting =>
      cases own
      simp only [State.perform, State.choose] at again
      split at again
      next held => exact same rfl (going.choose keyed held)
      next => cases again
  | lease acting =>
      cases own
      simp only [State.perform, State.lease] at again
      split at again
      next held => exact same rfl (going.lease keyed held)
      next => cases again
  | load acting =>
      cases own
      simp only [State.perform, State.load] at again
      split at again
      next held => exact same rfl (going.load keyed sound held)
      next => cases again
  | queryOwnership acting resolver =>
      cases own
      have published := helped row going.stored going.alike.id
      simp only [State.perform] at again
      split at again
      next held => exact same rfl (going.queryOwnership sound held published)
      next => cases again
  | queryRouting acting resolver zone =>
      cases own
      have published := helped row going.stored going.alike.id
      simp only [State.perform] at again
      split at again
      next held => exact same rfl (going.queryRouting sound held published zone)
      next => cases again
  | applyDns acting =>
      cases own
      simp only [State.perform, State.applyDns] at again
      split at again
      next held => exact same rfl (going.applyDns keyed sound held)
      next => cases again
  | reload acting =>
      cases own
      simp only [State.perform, State.reload] at again
      split at again
      next held => exact same rfl (going.reload active sound (keyed.domain?_eq going.stored) held)
      next => cases again
  | probeCertificate acting prober =>
      cases own
      simp only [State.perform] at again
      split at again
      next held => exact same rfl (going.probeCertificate held helped)
      next => cases again
  | probeOrigin acting prober =>
      cases own
      have serves := helped row going.stored going.alike.id
      simp only [State.perform] at again
      split at again
      next held => exact same rfl (going.probeOrigin held serves)
      next => cases again
  | applyEdge acting =>
      cases own
      simp only [State.perform, State.applyEdge] at again
      split at again
      next held => exact same rfl (going.applyEdge keyed active sound held)
      next => cases again

/-- Until the run is over, the worker's next step can be made. -/
theorem Going.next (busy : state.workers worker ≠ .idle) {resolver : Resolver}
    (published : row.publishedTo resolver = true) {prober : Prober}
    (certifies : prober.certifies state.clock = true) (serves : prober.serves row application = true) :
    ∃ action next, action.worker? = some worker ∧ Helped domain application state action ∧
      state.perform environment action = some next ∧
      Advances worker domain application origin state next := by
  have keyed := consistent.keyed
  have sound := consistent.sound row going.stored
  have only : ∀ other ∈ state.db.domains, other.id = domain.id → other = row := fun other stored same =>
    List.inj_on_of_nodup_map keyed stored going.stored (same.trans going.alike.id.symm)
  have found : ∀ other ∈ state.db.domains, other.id = domain.id → other.publishedTo resolver = true :=
    fun other stored same => only other stored same ▸ published
  have answers : ∀ other ∈ state.db.domains, other.id = domain.id → prober.serves other application = true :=
    fun other stored same => only other stored same ▸ serves
  cases held : state.workers worker with
  | idle => exact absurd held busy
  | begun id now =>
      obtain ⟨next, ran, advances⟩ := going.choose keyed held
      exact ⟨.choose worker, next, rfl, trivial, ran, advances⟩
  | chosen id now types =>
      obtain ⟨next, ran, advances⟩ := going.lease keyed held
      exact ⟨.lease worker, next, rfl, trivial, ran, advances⟩
  | leased id now types =>
      obtain ⟨next, ran, advances⟩ := going.load keyed sound held
      exact ⟨.load worker, next, rfl, trivial, ran, advances⟩
  | querying run =>
      obtain ⟨next, ran, advances⟩ := going.queryOwnership sound held published
      exact ⟨.queryOwnership worker resolver, next, rfl, found, ran, advances⟩
  | owned run ownership =>
      obtain ⟨next, ran, advances⟩ := going.queryRouting sound held published none
      exact ⟨.queryRouting worker resolver none, next, rfl, found, ran, advances⟩
  | queried run ownership routing zone =>
      obtain ⟨next, ran, advances⟩ := going.applyDns keyed sound held
      exact ⟨.applyDns worker, next, rfl, trivial, ran, advances⟩
  | between run =>
      obtain ⟨next, ran, advances⟩ := going.reload active sound (keyed.domain?_eq going.stored) held
      exact ⟨.reload worker, next, rfl, trivial, ran, advances⟩
  | probing run serving =>
      obtain ⟨next, ran, advances⟩ := going.probeCertificate held certifies
      exact ⟨.probeCertificate worker prober, next, rfl, certifies, ran, advances⟩
  | certified run serving certificate =>
      obtain ⟨next, ran, advances⟩ := going.probeOrigin held serves
      exact ⟨.probeOrigin worker prober, next, rfl, answers, ran, advances⟩
  | probed run certificate served =>
      obtain ⟨next, ran, advances⟩ := going.applyEdge keyed active sound held
      exact ⟨.applyEdge worker, next, rfl, trivial, ran, advances⟩

/-- Any step of a run that is not disturbed keeps it on its way. -/
theorem Going.step {action : Action ι} (performed : state.perform environment action = some after)
    (undisturbed : Undisturbed worker domain application state action after) :
    ∃ next, Going worker domain application origin after next := by
  unfold Undisturbed at undisturbed
  split at undisturbed
  next own => exact (going.own consistent active performed own undisturbed).1
  next other =>
    obtain ⟨rows, owner, serving⟩ := undisturbed
    have identity : application.id = row.applicationId := by simpa using List.find?_some going.owner
    rw [← going.alike.id, consistent.keyed.domain?_eq going.stored] at rows
    rw [identity, going.owner] at owner
    have moved := perform_other performed other
    exact ⟨row, (Database.domain?_id rows).2, going.alike, going.live, owner,
      serving.trans going.serving, by rw [moved]; exact going.phase⟩

end Steps

/-- Everything the edge does for a ready domain: it may have a certificate, a token for every path,
and the route to the origin. -/
structure Served (environment : Environment) (db : Database) (application : Application)
    (origin : VerifiedOrigin) (row : Domain) : Prop where
  ready : row.status = .ready
  serveable : isServeable (row.loaded db) = true
  certificate : ∀ edgeHostname, (tlsAsk environment true edgeHostname row.hostname).run db = (.ok 200, db)
  asserted : ∀ hmac settings deployment request now issued, ∃ token,
    (assertHostname hmac environment settings deployment row.hostname request now issued).run db =
      (.ok (.signed token), db)
  routed : ∀ network allowPrivate groups dial kept,
    serveableRouteGroups network allowPrivate db = some groups →
      pinnedDial network allowPrivate origin.host origin.port = .ok (dial, kept) →
        groupOf db application origin dial kept ∈ groups ∧
          row.hostname ∈ (groupOf db application origin dial kept).hostnames

omit [DecidableEq ι] in
theorem Going.served (going : Going worker domain application origin state row)
    (consistent : state.db.Consistent environment) (stable : environment.tables.Stable)
    (active : application.status = .active) (ready : row.IsReady) :
    Served environment state.db application origin row := by
  have serveable : isServeable (row.loaded state.db) = true := by
    rw [Domain.loaded, isServeable, going.owner, Option.map_some, going.live, ready.status, ready.verified,
      ready.passing, active]
    rfl
  have canonical : canonicalize environment.tables row.hostname false = .ok row.hostname := by
    obtain ⟨raw, accepted⟩ := consistent.hostname row going.stored
    exact canonicalize_stable stable accepted
  have routable := routable_of_isServeable serveable
  have lists := mem_routed going.stored going.owner routable
  refine ⟨ready.status, serveable, fun edgeHostname => ?_, fun hmac settings deployment request now issued => ?_,
    fun network allowPrivate groups dial kept listed pinned => ⟨?_, lists⟩⟩
  · exact tlsAsk_routable consistent canonical going.stored rfl routable
  · refine ⟨_, assertHostname_signs consistent canonical
      ⟨row, going.stored, going.live, rfl, ?_, application, going.owner, origin, going.serving⟩⟩
    rw [admits, serveable, Bool.true_or]
  · exact (mem_serveableRouteGroups listed _).mpr ⟨application, List.mem_of_find?_eq_some going.owner,
      active, routeGroup_of going.serving (List.ne_nil_of_mem lists) pinned⟩

/-- Once the records of a domain are published, a run of its due checks never gets stuck and ends with
the domain ready and served, whatever the other workers and the service do to everything else. -/
theorem published_domain_served {start before began state : State ι} (stable : environment.tables.Stable)
    (consistent : start.db.Consistent environment) (reached : Reaches environment Anyhow start before)
    (stored : domain ∈ before.db.domains) (live : domain.isLive = true)
    (owner : before.db.application? domain.applicationId = some application)
    (active : application.status = .active) (serving : servingOrigin before.db application = some origin)
    (ripe : domain.ripe (domain.dueTypes before.clock) = true)
    (begun : before.perform environment (.begin worker domain.id) = some began)
    (run : Reaches environment (Undisturbed worker domain application) began state) :
    ∃ row ∈ state.db.domains, domain.Alike row ∧
      (state.workers worker = .idle → Served environment state.db application origin row) ∧
      (state.workers worker ≠ .idle → ∀ (resolver : Resolver) (prober : Prober), row.publishedTo resolver = true →
        prober.certifies state.clock = true → prober.serves row application = true →
          ∃ action next, action.worker? = some worker ∧ Helped domain application state action ∧
            state.perform environment action = some next ∧
            (next.workers worker).stepsLeft + 1 = (state.workers worker).stepsLeft) := by
  have consistent : before.db.Consistent environment :=
    (reached.keeps (fun _ => True) consistent trivial fun _ _ _ _ => trivial).1
  have first : began.db = before.db ∧ began.workers worker = .begun domain.id before.clock := by
    simp only [State.perform] at begun
    split at begun
    next =>
      cases begun
      exact ⟨rfl, Function.update_self _ _ _⟩
    next => cases begun
  have going : ∃ row, Going worker domain application origin began row :=
    ⟨domain, first.1 ▸ stored, .refl domain, live, first.1 ▸ owner, first.1 ▸ serving,
      by rw [first.2]; exact ⟨rfl, ripe⟩⟩
  have kept : state.db.Consistent environment ∧ ∃ row, Going worker domain application origin state row := by
    refine GuardedRuns.Reaches.keeps run (fun state => state.db.Consistent environment ∧
      ∃ row, Going worker domain application origin state row) ⟨first.1 ▸ consistent, going⟩ ?_
    rintro state after action performed undisturbed ⟨consistent, row, going⟩
    exact ⟨(perform_moves consistent.keyed consistent.sound performed).consistent consistent,
      going.step consistent active performed undisturbed⟩
  obtain ⟨consistent, row, going⟩ := kept
  refine ⟨row, going.stored, going.alike, fun idle => ?_, fun busy resolver prober published certifies serves => ?_⟩
  · have ready := going.phase
    rw [idle] at ready
    exact going.served consistent stable active ready
  · obtain ⟨action, next, own, helped, performed, -, left⟩ :=
      going.next consistent active busy published certifies serves
    exact ⟨action, next, own, helped, performed, left⟩

instance helpedDecidable (domain : Domain) (application : Application) (state : State ι) :
    ∀ action : Action ι, Decidable (Helped domain application state action)
  | .begin _ _ | .crash _ => isFalse id
  | .queryOwnership _ resolver | .queryRouting _ resolver _ =>
      inferInstanceAs (Decidable (∀ row ∈ state.db.domains, row.id = domain.id →
        row.publishedTo resolver = true))
  | .probeCertificate _ prober => inferInstanceAs (Decidable (prober.certifies state.clock = true))
  | .probeOrigin _ prober =>
      inferInstanceAs (Decidable (∀ row ∈ state.db.domains, row.id = domain.id →
        prober.serves row application = true))
  | .tick _ | .service _ | .choose _ | .lease _ | .load _ | .applyDns _ | .reload _ | .applyEdge _ =>
      isTrue trivial

instance undisturbedDecidable (worker : ι) (domain : Domain) (application : Application)
    (state : State ι) (action : Action ι) (after : State ι) :
    Decidable (Undisturbed worker domain application state action after) :=
  inferInstanceAs (Decidable (if action.worker? = some worker then _ else _))

end Runs

/-! ## A registration that goes through -/

/-- A domain that was just registered, for an application with an active origin, and two workers. -/
def provisionedStart : State Bool where
  db := runAll sampleEnvironment (lonelyRun.take 5) {}
  clock := 0
  workers := fun _ => .idle

/-- An edge with a certificate for ninety days, and an origin that knows the workspace. -/
def sampleProber : Prober where
  formats := ⟨fun _ => "", id⟩
  edge := .ok {
    address := "93.184.216.34", notAfter := days 90, issuer := "E5", status := 204,
    edgeHeader := some edgeHealthValue }
  workspace := some (.ok {
    address := "93.184.216.34", status := 200, reference := some "workspace", applicationId := none })

/-- The first worker's run, while the other one finds nothing to do. -/
def provisioningActions : List (Action Bool) :=
  [.choose true, .lease true, .begin false 9, .load true, .queryOwnership true sampleResolver,
    .choose false, .queryRouting true sampleResolver none, .tick 1, .applyDns true, .reload true,
    .probeCertificate true sampleProber, .probeOrigin true sampleProber, .tick 2, .applyEdge true]

theorem published_domain_served_forms :
    ∃ domain application origin began state, domain ∈ provisionedStart.db.domains ∧
      provisionedStart.perform sampleEnvironment (.begin true domain.id) = some began ∧
      GuardedRuns.follow (State.perform sampleEnvironment) (Undisturbed true domain application) began
        provisioningActions = some state ∧
      ∃ row ∈ state.db.domains, domain.Alike row ∧
        Served sampleEnvironment state.db application origin row := by
  have ran : ((provisionedStart.db.domain? 2).any fun domain =>
      (provisionedStart.db.application? domain.applicationId).any fun application =>
        (servingOrigin provisionedStart.db application).any fun _ =>
          domain.isLive && application.status == .active &&
            domain.ripe (domain.dueTypes provisionedStart.clock) &&
            (provisionedStart.perform sampleEnvironment (.begin true domain.id)).any fun began =>
              (GuardedRuns.follow (State.perform sampleEnvironment) (Undisturbed true domain application)
                began provisioningActions).any fun state => (state.workers true).stepsLeft == 0) = true := by
    decide +kernel
  obtain ⟨domain, found, ran⟩ := (Option.any_eq_true _ _).mp ran
  obtain ⟨application, owner, ran⟩ := (Option.any_eq_true _ _).mp ran
  obtain ⟨origin, serving, ran⟩ := (Option.any_eq_true _ _).mp ran
  simp only [Bool.and_eq_true, beq_iff_eq] at ran
  obtain ⟨⟨⟨live, active⟩, ripe⟩, ran⟩ := ran
  obtain ⟨began, begun, ran⟩ := (Option.any_eq_true _ _).mp ran
  obtain ⟨state, followed, ended⟩ := (Option.any_eq_true _ _).mp ran
  have stored := (Database.domain?_id found).2
  refine ⟨domain, application, origin, began, state, stored, begun, followed, ?_⟩
  have idle : state.workers true = .idle := by
    rw [beq_iff_eq] at ended
    cases held : state.workers true with
    | idle => rfl
    | _ => rw [held] at ended; cases ended
  obtain ⟨row, kept, alike, served, -⟩ := published_domain_served sampleEnvironment_lawful.stable
    ((Database.consistent_empty sampleEnvironment).runAll _ : provisionedStart.db.Consistent _) .start stored
    live owner active serving ripe begun (GuardedRuns.Reaches.of_follow .start followed)
  exact ⟨row, kept, alike, served idle⟩

end Checks

end CustomDomain
