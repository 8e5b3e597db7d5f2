import CustomDomain.AuditRuns
import CustomDomain.LifecycleSafety

/-!
# The audit trail reproduces the state

In every state the service reaches, the events of a stored domain are stamped in
the order they were recorded, their status changes form a chain along the
allowed transitions, and folding them gives the status, the checks and the
claims that are stored.
-/

namespace CustomDomain

open Transaction EventHistory

/-- The time an operation is given. -/
def ServiceOp.time : ServiceOp → Time
  | .deleteApplication _ _ _ now | .claimDomain _ _ _ _ now | .reissueClaim _ _ _ _ now
  | .reissueClaimsForTarget _ _ now | .deleteDomain _ _ now | .requestRecheck _ _ _ now
  | .recordConnect _ _ now | .connectReturned _ _ now | .applyDnsOutcomes _ _ _ now
  | .applyEdgeOutcomes _ _ _ now | .importLegacyDomains _ _ _ _ now | .purgeTombstones now
  | .recordOriginVerification _ _ _ now => now
  | _ => 0

/-- The ownership outcome, where the operation carries one, is a result. -/
def ServiceOp.Settled : ServiceOp → Prop
  | .applyDnsOutcomes _ ownership _ _ => ownership.status ≠ .pending
  | _ => True

section Operations

-- The programs stay folded: the lemmas about them are enough.
attribute [local irreducible] Program.Within

/-- Every operation but the purge is a sequence of audited steps. -/
theorem ServiceOp.audit {environment : Environment} {db : Database}
    (consistent : db.Consistent environment) (op : ServiceOp) :
    AuditSteps op.Settled op.time db (op.run environment db) ∨
      ∃ now, op = .purgeTombstones now := by
  have ofSteps : ((op.program environment).Ensures db fun _ after =>
      AuditSteps op.Settled op.time db after) →
      AuditSteps op.Settled op.time db (op.run environment db) ∨
        ∃ now, op = .purgeTombstones now :=
    fun spec => .inl (spec.transact .refl)
  cases op with
  | purgeTombstones now => exact .inr ⟨now, rfl⟩
  | createApplication slug name cnameTarget id =>
      refine ofSteps ?_
      apply (Program.Within.audit
        (createApplication_silent environment slug name cnameTarget id)).bind
      exact fun _ _ steps => .of_pure steps
  | renameApplication application name =>
      exact ofSteps (withApplication_quiet fun application =>
        renameApplication_silent application name)
  | setRateLimits application perMinute perSecond =>
      exact ofSteps (withApplication_quiet fun application =>
        setRateLimits_silent application perMinute perSecond)
  | setDomainLimit application maxDomains =>
      exact ofSteps (withApplication_quiet fun application =>
        setDomainLimit_silent application maxDomains)
  | setApplicationStatus application status =>
      exact ofSteps (withApplication_quiet fun application =>
        setApplicationStatus_silent application status)
  | setWorkspaceProbe application enabled =>
      exact ofSteps (withApplication_quiet fun application =>
        setWorkspaceProbe_silent application enabled)
  | setCnameTarget application cnameTarget =>
      exact ofSteps (withApplication_quiet fun application =>
        setCnameTarget_silent environment application cnameTarget)
  | registerOrigin application host scheme port hostHeader fresh =>
      exact ofSteps (withApplication_ensures fun application _ _ =>
        registerOrigin_quiet environment application host scheme port hostHeader fresh)
  | setOriginHostHeader application origin hostHeader =>
      exact ofSteps (withOrigin_quiet fun origin => setOriginHostHeader_silent origin hostHeader)
  | recordOriginVerification application origin failure now =>
      exact ofSteps (withOrigin_quiet fun origin => storeOrigin_silent origin _)
  | activateOrigin application origin =>
      exact ofSteps (withOrigin_quiet fun origin => activateOrigin_silent origin)
  | deleteOrigin application origin =>
      exact ofSteps (withOrigin_quiet fun origin => deleteOrigin_silent origin)
  | retireOrigin application origin =>
      exact ofSteps (withOrigin_quiet fun origin => storeOrigin_silent origin _)
  | deleteApplication application confirmSlug deleteDomains now =>
      exact ofSteps (withApplication_ensures fun application _ _ =>
        deleteApplication_audit consistent application confirmSlug deleteDomains)
  | claimDomain application hostname reference fresh now =>
      exact ofSteps (withApplication_ensures fun application _ _ =>
        claimDomain_audit consistent application hostname reference fresh)
  | reissueClaim application domain claimId token now =>
      exact ofSteps (withApplication_ensures fun application _ _ =>
        reissueClaim_audit consistent application domain claimId token)
  | reissueClaimsForTarget application draw now =>
      exact ofSteps (withApplication_ensures fun application member _ =>
        reissueClaimsForTarget_audit consistent member draw)
  | deleteDomain application domain now =>
      exact ofSteps (withApplication_ensures fun application _ _ =>
        deleteDomain_audit consistent application domain)
  | requestRecheck application domain requestedBy now =>
      exact ofSteps (withApplication_ensures fun application _ _ =>
        requestRecheck_audit consistent application domain requestedBy)
  | recordConnect application plan now =>
      exact ofSteps (withApplication_ensures fun application _ _ =>
        recordConnect_audit consistent application plan)
  | connectReturned domain application now =>
      refine ofSteps ?_
      apply (connectReturned_audit consistent domain application).bind
      exact fun _ _ steps => .of_pure steps
  | applyDnsOutcomes domain ownership routing now =>
      exact ofSteps (withLoaded_ensures .refl fun domain member live =>
        applyDnsOutcomes_audit consistent member live routing fun settled => settled)
  | applyEdgeOutcomes domain certificate origin now =>
      exact ofSteps (withLoaded_ensures .refl fun domain member live =>
        applyEdgeOutcomes_audit consistent member live certificate origin)
  | importLegacyDomains application options entries draw now =>
      exact ofSteps (withApplication_ensures fun application member _ =>
        importLegacyDomains_audit consistent member options entries draw)

end Operations

/-! ## Trails -/

/-- The events of one domain, in the order they were recorded. -/
def Database.trail (db : Database) (domainId : Uuid) : List DomainEvent :=
  db.events.filter fun event => event.domainId = domainId

/-- `record_event` stamps an event later than every other of its domain. -/
theorem Database.lt_stamp {db : Database} {domainId : Uuid} (now : Time) {event : DomainEvent}
    (member : event ∈ db.trail domainId) : event.createdAt < db.stamp domainId now := by
  have stamped : event.createdAt ∈ (db.trail domainId).map (·.createdAt) :=
    List.mem_map_of_mem member
  unfold Database.stamp latestEvent
  rw [show (db.events.filter fun event => event.domainId = domainId) = db.trail domainId from rfl]
  split
  next last found =>
    have latest := (List.max?_eq_some_iff.mp found).2 _ stamped
    split
    next => exact Int.lt_add_one_of_le latest
    next later => exact lt_of_le_of_lt latest (not_le.mp later)
  next none =>
    rw [List.max?_eq_none_iff.mp none] at stamped
    cases stamped

namespace Logs

variable {id applicationId : Uuid} {now : Time} {db after : Database}
  {payloads : List EventPayload}

theorem events (logs : Logs id applicationId now db payloads after) :
    ∃ new, after.events = db.events ++ new ∧ new.map (·.payload) = payloads ∧
      ∀ event ∈ new, event.domainId = id ∧ event.applicationId = applicationId := by
  induction logs with
  | quiet same => exact ⟨[], by simp [same.events], rfl, by simp⟩
  | @entry db middle after domain payloads same here owner payload rest ih =>
      obtain ⟨new, appended, told, owned⟩ := ih
      refine ⟨⟨domain.id, domain.applicationId, payload, middle.stamp domain.id now⟩ :: new,
        ?_, ?_, ?_⟩
      · rw [appended, Database.recorded, same.events, List.append_assoc, List.singleton_append]
      · rw [List.map_cons, told]
      · intro event member
        rcases List.mem_cons.mp member with rfl | later
        · exact ⟨here, owner⟩
        · exact owned event later

theorem trail_other (logs : Logs id applicationId now db payloads after) {other : Uuid}
    (elsewhere : other ≠ id) : after.trail other = db.trail other := by
  obtain ⟨new, appended, -, owned⟩ := logs.events
  unfold Database.trail
  have outside : new.filter (fun event => event.domainId = other) = [] := by
    rw [List.filter_eq_nil_iff]
    intro event member
    simp [(owned event member).1, Ne.symm elsewhere]
  rw [appended, List.filter_append, outside, List.append_nil]

theorem trail_payloads (logs : Logs id applicationId now db payloads after) :
    (after.trail id).map (·.payload) = (db.trail id).map (·.payload) ++ payloads := by
  obtain ⟨new, appended, told, owned⟩ := logs.events
  unfold Database.trail
  have inside : new.filter (fun event => event.domainId = id) = new := by
    rw [List.filter_eq_self]
    intro event member
    simp [(owned event member).1]
  rw [appended, List.filter_append, List.map_append, inside, told]

/-- What is recorded keeps the trail in the order of its stamps. -/
theorem ordered (logs : Logs id applicationId now db payloads after)
    (ordered : (db.trail id).Pairwise fun first second => first.createdAt < second.createdAt) :
    (after.trail id).Pairwise fun first second => first.createdAt < second.createdAt := by
  induction logs with
  | quiet same =>
      unfold Database.trail at ordered ⊢
      rw [same.events]
      exact ordered
  | @entry db middle after domain payloads same here owner payload rest ih =>
      apply ih
      have unchanged : middle.trail id = db.trail id := by
        unfold Database.trail
        rw [same.events]
      have appended : (middle.recorded domain payload now).trail id =
          db.trail id ++ [⟨domain.id, domain.applicationId, payload, middle.stamp domain.id now⟩] := by
        rw [← unchanged]
        simp [Database.trail, Database.recorded, here]
      rw [appended, List.pairwise_append]
      refine ⟨ordered, List.pairwise_singleton _ _, ?_⟩
      intro first member second last
      rw [List.mem_singleton.mp last]
      rw [← unchanged, ← here] at member
      exact middle.lt_stamp now member

end Logs

/-- The trail of a domain tells what is stored of it. -/
structure Database.Trail (db : Database) (domain : Domain) : Prop where
  ordered : (db.trail domain.id).Pairwise fun first second => first.createdAt < second.createdAt
  told : ∃ hostname reference payloads,
    (db.trail domain.id).map (·.payload) = .domainCreated hostname reference :: payloads ∧
      Snapshot.initial.History payloads ∧
      payloads.foldl Snapshot.after Snapshot.initial = domain.snapshot

/-- Every stored domain has its trail, and there are no other events. -/
structure Database.Audited (db : Database) : Prop where
  trails : ∀ domain ∈ db.domains, db.Trail domain
  owners : ∀ event ∈ db.events, ∃ domain ∈ db.domains,
    domain.id = event.domainId ∧ domain.applicationId = event.applicationId

theorem Database.audited_empty : ({} : Database).Audited := ⟨by simp, by simp⟩

theorem Database.Trail.congr {db after : Database} {domain : Domain} (trail : db.Trail domain)
    (same : after.trail domain.id = db.trail domain.id) : after.Trail domain := by
  obtain ⟨ordered, told⟩ := trail
  refine ⟨?_, ?_⟩ <;> rwa [same]

/-- Steps keep every trail. -/
theorem Database.Audited.step {decided : Prop} {now : Time} {db after : Database}
    (audited : db.Audited) (keyed : db.Keyed) (step : AuditStep decided now db after) :
    after.Audited := by
  cases step with
  | quiet same domains =>
      refine ⟨fun domain member => ?_, ?_⟩
      · rw [domains] at member
        apply (audited.trails domain member).congr
        unfold Database.trail
        rw [same.events]
      · rw [same.events, domains]
        exact audited.owners
  | @told domain next after member told holds =>
      obtain ⟨payloads, logs, history, ends, -⟩ := told.entries
      have rows : ∀ row ∈ db.domains, row.id ≠ domain.id → row ∈ after.domains := by
        intro row present elsewhere
        rw [holds.domains]
        refine List.mem_map.mpr ⟨row, present, if_neg ?_⟩
        rw [told.id]
        exact elsewhere
      refine ⟨fun row present => ?_, fun event recorded => ?_⟩
      · by_cases here : row.id = next.id
        · rw [holds.row_eq present here]
          obtain ⟨hostname, reference, past, same, earlier, reached⟩ :=
            (audited.trails domain member).told
          refine ⟨?_, hostname, reference, past ++ payloads, ?_, ?_, ?_⟩
          · rw [told.id]
            exact logs.ordered (audited.trails domain member).ordered
          · rw [told.id, logs.trail_payloads, same, List.cons_append]
          · exact earlier.append (reached ▸ history)
          · rw [List.foldl_append, reached, ends]
        · rw [holds.domains] at present
          obtain ⟨before, stored, shape⟩ := List.mem_map.mp present
          split at shape
          next => exact absurd (congrArg Domain.id shape.symm) here
          next elsewhere =>
            subst shape
            apply (audited.trails _ stored).congr
            apply logs.trail_other
            rw [← told.id]
            exact here
      · obtain ⟨new, appended, -, owned⟩ := logs.events
        rw [appended, List.mem_append] at recorded
        rcases recorded with old | recent
        · obtain ⟨row, stored, id, owner⟩ := audited.owners event old
          by_cases here : row.id = domain.id
          · have same : row = domain := List.inj_on_of_nodup_map keyed stored member here
            subst same
            exact ⟨next, holds.mem, told.id.trans id, told.applicationId.trans owner⟩
          · exact ⟨row, rows row stored here, id, owner⟩
        · exact ⟨next, holds.mem, told.id.trans (owned event recent).1.symm,
            told.applicationId.trans (owned event recent).2.symm⟩
  | @registered next after hostname reference payloads adds unused logs history ends streak =>
      have distinct : ∀ row ∈ db.domains, row.id ≠ next.id := by
        intro row stored same
        exact absurd (List.find?_eq_none.mp unused row stored) (by simp [same])
      have bare : db.trail next.id = [] := by
        unfold Database.trail
        rw [List.filter_eq_nil_iff]
        intro event recorded
        obtain ⟨row, stored, id, -⟩ := audited.owners event recorded
        simp only [decide_eq_true_eq]
        intro same
        exact distinct row stored (id.trans same)
      refine ⟨fun row present => ?_, fun event recorded => ?_⟩
      · rw [adds.domains, List.mem_append, List.mem_singleton] at present
        rcases present with stored | rfl
        · exact (audited.trails row stored).congr (logs.trail_other (distinct row stored))
        · refine ⟨logs.ordered (by simp [bare]), hostname, reference, payloads, ?_, history, ends⟩
          rw [logs.trail_payloads, bare]
          rfl
      · obtain ⟨new, appended, -, owned⟩ := logs.events
        rw [appended, List.mem_append] at recorded
        rw [adds.domains]
        rcases recorded with old | recent
        · obtain ⟨row, stored, told⟩ := audited.owners event old
          exact ⟨row, List.mem_append_left _ stored, told⟩
        · exact ⟨next, by simp, (owned event recent).1.symm, (owned event recent).2.symm⟩

theorem AuditStep.keyed {decided : Prop} {now : Time} {db after : Database}
    (step : AuditStep decided now db after) (keyed : db.Keyed) : after.Keyed := by
  cases step with
  | quiet same domains =>
      unfold Database.Keyed
      rw [domains]
      exact keyed
  | told member told holds => exact holds.keyed keyed
  | registered adds unused logs history ends streak =>
      unfold Database.Keyed
      rw [adds.domains]
      exact keyed.append unused

theorem Database.Audited.steps {decided : Prop} {now : Time} {db after : Database}
    (audited : db.Audited) (keyed : db.Keyed) (steps : AuditSteps decided now db after) :
    after.Audited ∧ after.Keyed := by
  induction steps with
  | refl => exact ⟨audited, keyed⟩
  | tail _ step ih => exact ⟨ih.1.step ih.2 step, step.keyed ih.2⟩

/-! ## The purge -/

/-- The purge keeps the whole trail of every domain it keeps. -/
theorem Database.Audited.trail_purged {environment : Environment} {db : Database}
    (audited : db.Audited) (consistent : db.Consistent environment) (now : Time)
    {domain : Domain} (kept : domain ∈ (purgeRows now db).domains) :
    (purgeRows now db).trail domain.id = db.trail domain.id := by
  have stored : domain ∈ db.domains := List.mem_of_mem_filter kept
  obtain ⟨owner, present, owns⟩ := (consistent.purged now).owned domain kept
  unfold Database.trail
  rw [purgeRows, List.filter_filter]
  apply List.filter_congr
  intro event recorded
  by_cases here : event.domainId = domain.id
  · obtain ⟨row, member, id, application⟩ := audited.owners event recorded
    have same : row = domain :=
      List.inj_on_of_nodup_map consistent.keyed member stored (id.trans here)
    subst same
    have keeps : ((purgeRows now db).applications.any fun application =>
        application.id == event.applicationId) = true :=
      List.any_eq_true.mpr ⟨owner, present, by simp [owns, application]⟩
    have listed : ((purgeRows now db).domains.any fun domain =>
        domain.id == event.domainId) = true :=
      List.any_eq_true.mpr ⟨row, kept, by simp [here]⟩
    rw [purgeRows] at keeps listed
    simp only at keeps listed ⊢
    rw [keeps, listed, Bool.and_true, Bool.and_true]
  · simp [here]

theorem Database.Audited.purged {environment : Environment} {db : Database}
    (audited : db.Audited) (consistent : db.Consistent environment) (now : Time) :
    (purgeRows now db).Audited := by
  refine ⟨fun domain kept => ?_, fun event kept => ?_⟩
  · exact (audited.trails domain (List.mem_of_mem_filter kept)).congr
      (audited.trail_purged consistent now kept)
  · rw [purgeRows, List.mem_filter, Bool.and_eq_true] at kept
    obtain ⟨recorded, -, listed⟩ := kept
    obtain ⟨domain, present, here⟩ := List.any_eq_true.mp listed
    obtain ⟨row, member, id, application⟩ := audited.owners event recorded
    have same : row = domain := List.inj_on_of_nodup_map consistent.keyed member
      (List.mem_of_mem_filter present) (id.trans (beq_iff_eq.mp here).symm)
    subst same
    exact ⟨row, present, id, application⟩

/-! ## Runs -/

theorem Database.Audited.run {environment : Environment} {db : Database} (audited : db.Audited)
    (consistent : db.Consistent environment) (op : ServiceOp) :
    (op.run environment db).Audited := by
  rcases op.audit consistent with steps | ⟨now, rfl⟩
  · exact (audited.steps consistent.keyed steps).1
  · rw [ServiceOp.run_purge]
    exact audited.purged consistent now

theorem Database.Audited.runAll {environment : Environment} {db : Database}
    (audited : db.Audited) (consistent : db.Consistent environment) (ops : List ServiceOp) :
    (runAll environment ops db).Audited := by
  induction ops generalizing db with
  | nil => exact audited
  | cons op ops ih => exact ih (audited.run consistent op) (consistent.runAll [op])

/-- Folding the events of a stored domain in the order of their stamps gives what
is stored of it. -/
theorem trail_reproduces_state (environment : Environment) (ops : List ServiceOp)
    {domain : Domain} (stored : domain ∈ (runAll environment ops {}).domains) :
    let events := (runAll environment ops {}).trail domain.id
    (events.Pairwise fun first second => first.createdAt < second.createdAt) ∧
      StatusChain (statusChanges (events.map (·.payload))) ∧
      Snapshot.replay ((events.insertionSort fun first second =>
        first.createdAt ≤ second.createdAt).map (·.payload)) = some domain.snapshot := by
  intro events
  have audited : (runAll environment ops {}).Audited :=
    Database.audited_empty.runAll (Database.consistent_empty environment) ops
  obtain ⟨ordered, hostname, reference, payloads, told, history, reached⟩ :=
    audited.trails domain stored
  refine ⟨ordered, ?_, ?_⟩
  · rw [told, statusChanges, List.filterMap_cons_none rfl]
    exact history.chain
  · rw [(ordered.imp le_of_lt).insertionSort_eq, told, Snapshot.replay_created, reached]

/-- A domain that went from registration to `ready`, and its trail. -/
theorem trail_reproduces_state_readyRun :
    ∃ domain ∈ (runAll sampleEnvironment readyRun {}).domains, domain.status = .ready ∧
      let events := (runAll sampleEnvironment readyRun {}).trail domain.id
      (events.Pairwise fun first second => first.createdAt < second.createdAt) ∧
        StatusChain (statusChanges (events.map (·.payload))) ∧
        Snapshot.replay ((events.insertionSort fun first second =>
          first.createdAt ≤ second.createdAt).map (·.payload)) = some domain.snapshot := by
  have reached : ∃ domain ∈ (runAll sampleEnvironment readyRun {}).domains,
      domain.status = .ready := by decide +kernel
  obtain ⟨domain, stored, ready⟩ := reached
  exact ⟨domain, stored, ready, trail_reproduces_state sampleEnvironment readyRun stored⟩

end CustomDomain
