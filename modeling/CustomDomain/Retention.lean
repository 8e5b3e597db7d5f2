import CustomDomain.AuditSafety

/-!
# Retention

A tombstone keeps its row, its claims, its checks and its events until
`deleted_at + TOMBSTONE_RETENTION`.  `purge_tombstones` removes exactly the
tombstones that are due, then the deleted applications that are due and have no
domain left, and never fails.
-/

namespace CustomDomain

open Transaction

/-- Every tombstone is to be purged when its retention has passed. -/
def Database.Buried (db : Database) : Prop :=
  ∀ domain ∈ db.domains, ∀ deleted, domain.deletedAt = some deleted →
    domain.purgeAfter = some (deleted + tombstoneRetention)

/-- A live domain says nothing about retention. -/
theorem Domain.deletedAt_of_isLive {domain : Domain} (live : domain.isLive = true) :
    domain.deletedAt = none := by
  simpa [Domain.isLive, Domain.isDeleted] using live

section Steps

variable {environment : Environment} {admits : Outcome → Prop} {db after : Database}

theorem Evolves.buried {domain next : Domain} (sound : domain.Sound)
    (evolves : Evolves admits db domain next) {deleted : Time}
    (dead : next.deletedAt = some deleted) :
    next.purgeAfter = some (deleted + tombstoneRetention) := by
  have alive : ∀ {moved : Domain}, moved.isLive = true → moved.deletedAt ≠ some deleted :=
    fun live dead => by simp [Domain.deletedAt_of_isLive live] at dead
  cases evolves with
  | dns live _ now => exact absurd dead (alive ((domain.dnsApplied_isLive _ _ now).trans live))
  | edge live _ now =>
      exact absurd dead (alive ((domain.edgeApplied_kept _ _ now).isLive.trans live))
  | reissued live _ _ now =>
      have cleared : (domain.reset now).isLive = true :=
        (Domain.reset_facts sound live now).1.isLive.trans
          ((domain.changeClaim_isLive _).trans live)
      exact absurd dead (alive cleared)
  | tombstoned live now =>
      rw [Domain.tombstoned, Domain.revoked, Domain.changeClaim_frame] at dead ⊢
      change some now = some deleted at dead
      change some (now + tombstoneRetention) = _
      cases dead
      rfl
  | rescheduled live same => exact absurd dead (alive (same.isLive.trans live))

theorem Database.Buried.change (buried : db.Buried) (consistent : db.Consistent environment)
    (change : Change environment admits db after) : after.Buried := by
  cases change with
  | quiet same =>
      unfold Database.Buried
      rw [same.domains]
      exact buried
  | @registered application owner hostname reference fresh now domain registration adopted _ adds =>
      intro row member deleted dead
      rw [adds.domains, List.mem_append, List.mem_singleton] at member
      rcases member with old | rfl
      · exact buried row old deleted dead
      · have live : domain.isLive = true := by
          rw [registration.eq]
          rfl
        have alive : (if adopted then domain.adopted now else domain).isLive = true := by
          split
          next =>
            rw [Domain.adopted, (Domain.moved_kept _ _ _).isLive, (Domain.observed_kept _ _ _).isLive,
              Domain.verified, Domain.changeClaim_isLive, live]
          next => exact live
        simp [Domain.deletedAt_of_isLive alive] at dead
  | @evolved domain next member evolves _ holds =>
      intro row present deleted dead
      rw [holds.domains] at present
      obtain ⟨old, stored, shape⟩ := List.mem_map.mp present
      split at shape
      next =>
        subst shape
        exact evolves.buried (consistent.sound domain member) dead
      next =>
        subst shape
        exact buried old stored deleted dead
  | applicationCreated => exact buried
  | applicationChanged => exact buried
  | originAdded => exact buried
  | originChanged => exact buried
  | originRemoved => exact buried
  | credentialsChanged => exact buried

theorem Database.Buried.changes (buried : db.Buried) (consistent : db.Consistent environment)
    (changes : Changes environment admits db after) : after.Buried := by
  induction changes with
  | refl => exact buried
  | tail earlier step ih => exact ih.change (consistent.changes earlier) step

theorem Database.Buried.run (buried : db.Buried) (consistent : db.Consistent environment)
    (op : ServiceOp) : (op.run environment db).Buried := by
  rcases ServiceOp.changes consistent op.admits_any with changes | ⟨now, rfl⟩
  · exact buried.changes consistent changes
  · rw [ServiceOp.run_purge]
    exact fun domain kept => buried domain (List.mem_of_mem_filter kept)

/-- What is recorded stays, unless it is purged. -/
theorem AuditSteps.keeps_events {decided : Prop} {now : Time}
    (steps : AuditSteps decided now db after) {event : DomainEvent} (recorded : event ∈ db.events) :
    event ∈ after.events := by
  induction steps with
  | refl => exact recorded
  | tail _ step ih =>
      cases step with
      | quiet same _ => rwa [same.events]
      | told _ told _ =>
          obtain ⟨payloads, logs, -⟩ := told.entries
          obtain ⟨new, appended, -⟩ := logs.events
          rw [appended]
          exact List.mem_append_left _ ih
      | registered _ _ logs =>
          obtain ⟨new, appended, -⟩ := logs.events
          rw [appended]
          exact List.mem_append_left _ ih

/-- A tombstone is not purged before its retention has passed. -/
theorem Database.Buried.kept (buried : db.Buried) {domain : Domain} (member : domain ∈ db.domains)
    {deleted now : Time} (dead : domain.deletedAt = some deleted)
    (early : now < deleted + tombstoneRetention) : domain ∈ (purgeRows now db).domains := by
  refine List.mem_filter.mpr ⟨member, ?_⟩
  simp [Domain.purgeable, buried domain member deleted dead, early]

/-- Until then, every operation keeps the row, with its claims and checks, and its
events. -/
theorem ServiceOp.retains (buried : db.Buried) (consistent : db.Consistent environment)
    (audited : db.Audited) (op : ServiceOp) {domain : Domain} (member : domain ∈ db.domains)
    {deleted : Time} (dead : domain.deletedAt = some deleted)
    (early : ∀ now, op = .purgeTombstones now → now < deleted + tombstoneRetention) :
    domain ∈ (op.run environment db).domains ∧
      ∀ event ∈ db.events, event.domainId = domain.id → event ∈ (op.run environment db).events := by
  have gone : domain.isLive = false := by simp [Domain.isLive, Domain.isDeleted, dead]
  rcases op.audit consistent with steps | ⟨now, rfl⟩
  · rcases ServiceOp.changes consistent op.admits_any with changes | ⟨now, rfl⟩
    · exact ⟨changes.keeps_deleted consistent member gone,
        fun event recorded _ => steps.keeps_events recorded⟩
    · rw [ServiceOp.run_purge] at steps ⊢
      exact ⟨buried.kept member dead (early now rfl),
        fun event recorded _ => steps.keeps_events recorded⟩
  · rw [ServiceOp.run_purge]
    have kept := buried.kept member dead (early now rfl)
    refine ⟨kept, fun event recorded here => ?_⟩
    have trail : event ∈ db.trail domain.id := List.mem_filter.mpr ⟨recorded, by simp [here]⟩
    rw [← audited.trail_purged consistent now kept] at trail
    exact List.mem_of_mem_filter trail

end Steps

/-! ## What a purge removes -/

theorem Domain.purgeable_iff (domain : Domain) (now : Time) :
    domain.purgeable now = true ↔ ∃ deleted purge, domain.deletedAt = some deleted ∧
      domain.purgeAfter = some purge ∧ purge ≤ now := by
  unfold Domain.purgeable Domain.isDeleted
  cases domain.deletedAt <;> cases domain.purgeAfter <;> simp

theorem mem_purged_domains {now : Time} {db : Database} {domain : Domain} :
    domain ∈ (purgeRows now db).domains ↔ domain ∈ db.domains ∧
      ¬ ∃ deleted purge, domain.deletedAt = some deleted ∧ domain.purgeAfter = some purge ∧
        purge ≤ now := by
  rw [← Domain.purgeable_iff, show (purgeRows now db).domains =
    db.domains.filter fun domain => !domain.purgeable now from rfl, List.mem_filter]
  simp

/-- An application stays unless it is deleted, due, and left by its domains. -/
theorem mem_purged_applications {now : Time} {db : Database} {application : Application} :
    application ∈ (purgeRows now db).applications ↔ application ∈ db.applications ∧
      ¬ (application.deletedAt.isSome = true ∧
        (∃ purge, application.purgeAfter = some purge ∧ purge ≤ now) ∧
        ∀ domain ∈ (purgeRows now db).domains, domain.applicationId ≠ application.id) := by
  rw [show (purgeRows now db).applications = db.applications.filter fun application =>
    !application.purgeable now (purgeRows now db).domains from rfl, List.mem_filter]
  unfold Application.purgeable
  cases application.deletedAt <;> cases application.purgeAfter <;> simp [or_iff_not_imp_left]

section Runs

variable {environment : Environment}

theorem Database.Buried.runAll {db : Database} (buried : db.Buried)
    (consistent : db.Consistent environment) (ops : List ServiceOp) :
    (runAll environment ops db).Buried := by
  induction ops generalizing db with
  | nil => exact buried
  | cons op ops ih => exact ih (buried.run consistent op) (consistent.runAll [op])

theorem runAll_retains {db : Database} (buried : db.Buried)
    (consistent : db.Consistent environment) (audited : db.Audited) (ops : List ServiceOp)
    {domain : Domain} (member : domain ∈ db.domains) {deleted : Time}
    (dead : domain.deletedAt = some deleted)
    (early : ∀ now, .purgeTombstones now ∈ ops → now < deleted + tombstoneRetention) :
    domain ∈ (runAll environment ops db).domains ∧
      ∀ event ∈ db.events, event.domainId = domain.id →
        event ∈ (runAll environment ops db).events := by
  induction ops generalizing db with
  | nil => exact ⟨member, fun _ recorded _ => recorded⟩
  | cons op ops ih =>
      obtain ⟨kept, events⟩ := op.retains buried consistent audited member dead
        fun now purge => early now (by simp [purge])
      obtain ⟨kept', events'⟩ := ih (buried.run consistent op) (consistent.runAll [op])
        (audited.run consistent op) kept fun now purge => early now (by simp [purge])
      exact ⟨kept', fun event recorded here =>
        events' event (events event recorded here) here⟩

/-- Tombstones are retained, and a purge removes what is due and nothing else. -/
theorem retention_kept (environment : Environment) (ops : List ServiceOp) :
    let db := runAll environment ops {}
    (∀ more, ∀ domain ∈ db.domains, ∀ deleted, domain.deletedAt = some deleted →
      (∀ now, ServiceOp.purgeTombstones now ∈ more → now < deleted + tombstoneRetention) →
      domain ∈ (runAll environment more db).domains ∧
        ∀ event ∈ db.events, event.domainId = domain.id →
          event ∈ (runAll environment more db).events) ∧
    ∀ now, ∃ purged,
      (purgeTombstones now).run db = (.ok (db.domains.filter (·.purgeable now)).length, purged) ∧
      (∀ domain, domain ∈ purged.domains ↔ domain ∈ db.domains ∧
        ¬ ∃ deleted purge, domain.deletedAt = some deleted ∧ domain.purgeAfter = some purge ∧
          purge ≤ now) ∧
      (∀ application ∈ db.applications, application ∉ purged.applications →
        application.deletedAt.isSome = true ∧
          (∃ purge, application.purgeAfter = some purge ∧ purge ≤ now) ∧
          ∀ domain ∈ purged.domains, domain.applicationId ≠ application.id) ∧
      ∀ application ∈ db.applications, application.deletedAt.isSome = true →
        (∃ purge, application.purgeAfter = some purge ∧ purge ≤ now) →
        (∀ domain ∈ db.domains, domain.applicationId = application.id →
          ∃ deleted, domain.deletedAt = some deleted ∧ deleted + tombstoneRetention ≤ now) →
        application ∉ purged.applications ∧
          ∀ domain ∈ purged.domains, domain.applicationId ≠ application.id := by
  intro db
  have consistent : db.Consistent environment := (Database.consistent_empty environment).runAll ops
  have audited : db.Audited :=
    Database.audited_empty.runAll (Database.consistent_empty environment) ops
  have buried : db.Buried :=
    Database.Buried.runAll (by simp [Database.Buried]) (Database.consistent_empty environment) ops
  refine ⟨fun more domain member deleted dead early =>
      runAll_retains buried consistent audited more member dead early,
    fun now => ⟨purgeRows now db, purgeTombstones_run now db, fun domain => ?_,
      fun application member removed => ?_, fun application member deleted due done => ?_⟩⟩
  · exact mem_purged_domains
  · rw [mem_purged_applications, not_and, not_not] at removed
    exact removed member
  · have left : ∀ domain ∈ (purgeRows now db).domains, domain.applicationId ≠ application.id := by
      intro domain kept owner
      obtain ⟨stored, waiting⟩ := mem_purged_domains.mp kept
      obtain ⟨deleted, dead, past⟩ := done domain stored owner
      exact waiting ⟨deleted, _, dead, buried domain stored deleted dead, past⟩
    refine ⟨fun kept => ?_, left⟩
    exact (mem_purged_applications.mp kept).2 ⟨deleted, due, left⟩

/-- An application with one domain, deleted as a whole. -/
def retiredRun : List ServiceOp :=
  [.createApplication "acme" "Acme" "edge.example.net" 1,
   .claimDomain 1 "app.customer.com" "workspace" ⟨7, 8, "token"⟩ 0,
   .deleteApplication 1 "acme" true 0]

/-- The tombstone outlives a purge after 89 days, and one after 90 days removes it and
the application. -/
theorem retention_kept_retiredRun :
    (∃ domain ∈ (runAll sampleEnvironment retiredRun {}).domains, domain.deletedAt = some 0 ∧
      domain ∈ (runAll sampleEnvironment [.purgeTombstones (days 89)]
        (runAll sampleEnvironment retiredRun {})).domains) ∧
    ∃ application ∈ (runAll sampleEnvironment retiredRun {}).applications, ∃ purged,
      ((purgeTombstones (days 90)).run (runAll sampleEnvironment retiredRun {})).2 = purged ∧
        application ∉ purged.applications := by
  obtain ⟨retained, purges⟩ := retention_kept sampleEnvironment retiredRun
  constructor
  · have reached : ∃ domain ∈ (runAll sampleEnvironment retiredRun {}).domains,
        domain.deletedAt = some 0 := by decide +kernel
    obtain ⟨domain, member, dead⟩ := reached
    refine ⟨domain, member, dead, (retained _ domain member 0 dead ?_).1⟩
    rintro now listed
    rw [List.mem_singleton] at listed
    cases listed
    decide
  · have reached : ∃ application ∈ (runAll sampleEnvironment retiredRun {}).applications,
        application.deletedAt.isSome = true ∧
          ∃ purge, application.purgeAfter = some purge ∧ purge ≤ days 90 := by
      refine ⟨(runAll sampleEnvironment retiredRun {}).applications.get ⟨0, by decide +kernel⟩,
        List.get_mem _ _, by decide +kernel, days 90, by decide +kernel, le_rfl⟩
    obtain ⟨application, member, deleted, due⟩ := reached
    obtain ⟨purged, ran, -, -, removes⟩ := purges (days 90)
    refine ⟨application, member, purged, by rw [ran], (removes application member deleted due ?_).1⟩
    have past : ∀ domain ∈ (runAll sampleEnvironment retiredRun {}).domains,
        domain.deletedAt = some 0 := by decide +kernel
    exact fun domain stored _ => ⟨0, past domain stored, by decide⟩

end Runs

end CustomDomain
