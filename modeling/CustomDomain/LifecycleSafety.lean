import CustomDomain.ServiceRuns

/-!
# Lifecycle safety

What holds of every domain in every state the service reaches: a live domain
has exactly one claim that is not revoked and a deleted one has none and never
changes again; a ready domain has a verified claim and four passing checks as
long as every check is decided; and applying outcomes never raises.
-/

namespace CustomDomain

open Transaction

/-! ## Tombstones stay -/

section Tombstones

variable {environment : Environment} {admits : Outcome → Prop} {db after : Database}

/-- A change never touches a deleted domain. -/
theorem Change.keeps_deleted (consistent : db.Consistent environment)
    (change : Change environment admits db after) {domain : Domain}
    (member : domain ∈ db.domains) (deleted : domain.isLive = false) :
    domain ∈ after.domains := by
  cases change with
  | quiet same =>
      rw [same.domains]
      exact member
  | registered owner registration adopted adds =>
      rw [adds.domains]
      exact List.mem_append_left _ member
  | @evolved moved next present evolves _ holds =>
      rw [holds.domains]
      refine List.mem_map.mpr ⟨domain, member, if_neg ?_⟩
      rw [(evolves.frame (consistent.sound moved present)).1]
      intro same
      have live := evolves.live
      rw [← List.inj_on_of_nodup_map consistent.keyed member present same, deleted] at live
      cases live
  | applicationCreated => exact member
  | applicationChanged => exact member
  | originAdded => exact member
  | originChanged => exact member
  | originRemoved => exact member
  | credentialsChanged => exact member

theorem Changes.keeps_deleted (consistent : db.Consistent environment)
    (changes : Changes environment admits db after) {domain : Domain}
    (member : domain ∈ db.domains) (deleted : domain.isLive = false) :
    domain ∈ after.domains := by
  induction changes with
  | refl => exact member
  | tail earlier step ih => exact step.keeps_deleted (consistent.changes earlier) ih deleted

/-- After a transaction a tombstone is as it was, or purged. -/
theorem ServiceStep.keeps_deleted (consistent : db.Consistent environment)
    (step : ServiceStep environment admits db after) {domain row : Domain}
    (member : domain ∈ db.domains) (deleted : domain.isLive = false)
    (stored : row ∈ after.domains) (same : row.id = domain.id) : row = domain := by
  rcases step with changes | ⟨now, rfl⟩
  · exact List.inj_on_of_nodup_map (consistent.changes changes).keyed stored
      (changes.keeps_deleted consistent member deleted) same
  · exact List.inj_on_of_nodup_map consistent.keyed (List.mem_of_mem_filter stored) member same

end Tombstones

/-- The domain has a row after each operation of the run. -/
def ExistsThroughout (environment : Environment) (id : Uuid) (ops : List ServiceOp)
    (db : Database) : Prop :=
  ∀ count, ∃ row ∈ (runAll environment (ops.take count) db).domains, row.id = id

/-- A tombstone stays as it is for as long as it exists. -/
theorem runAll_keeps_deleted {environment : Environment} {db : Database}
    (consistent : db.Consistent environment) (ops : List ServiceOp) {domain : Domain}
    (member : domain ∈ db.domains) (deleted : domain.isLive = false)
    (exist : ExistsThroughout environment domain.id ops db) :
    ∀ row ∈ (runAll environment ops db).domains, row.id = domain.id → row = domain := by
  induction ops generalizing db with
  | nil =>
      intro row stored same
      exact List.inj_on_of_nodup_map consistent.keyed stored member same
  | cons op ops ih =>
      have step := ServiceOp.step consistent op.admits_any
      obtain ⟨row, stored, same⟩ := exist 1
      have kept : domain ∈ (op.run environment db).domains := by
        rw [← step.keeps_deleted consistent member deleted stored same]
        exact stored
      exact ih (consistent.step step) kept fun count => exist (count + 1)

/-! ## Readiness over runs -/

section Readiness

variable {environment : Environment} {admits : Outcome → Prop} {db after : Database}

/-- Every ready domain has earned it. -/
def Database.ReadyEarned (db : Database) : Prop := ∀ domain ∈ db.domains, domain.ReadyEarned

theorem Change.readyEarned (decided : ∀ outcome, admits outcome → outcome.status ≠ .pending)
    (consistent : db.Consistent environment) (earned : db.ReadyEarned)
    (change : Change environment admits db after) : after.ReadyEarned := by
  cases change with
  | quiet same =>
      rw [Database.ReadyEarned, same.domains]
      exact earned
  | @registered _ _ _ _ _ now domain registration adopted _ adds =>
      rw [Database.ReadyEarned, adds.domains]
      intro row member
      rcases List.mem_append.mp member with old | new
      · exact earned row old
      · rw [List.mem_singleton.mp new]
        refine .of_status ?_
        split
        next => simp [Domain.adopted, Domain.moved]
        next =>
          rw [registration.eq]
          simp [Domain.registered, newDomain]
  | @evolved moved next present evolves _ holds =>
      rw [Database.ReadyEarned, holds.domains]
      intro row member
      obtain ⟨before, stored, rfl⟩ := List.mem_map.mp member
      split
      next =>
        exact evolves.readyEarned decided (consistent.sound moved present) (earned moved present)
      next => exact earned before stored
  | applicationCreated => exact earned
  | applicationChanged => exact earned
  | originAdded => exact earned
  | originChanged => exact earned
  | originRemoved => exact earned
  | credentialsChanged => exact earned

theorem ServiceStep.readyEarned (decided : ∀ outcome, admits outcome → outcome.status ≠ .pending)
    (consistent : db.Consistent environment) (earned : db.ReadyEarned)
    (step : ServiceStep environment admits db after) : after.ReadyEarned := by
  rcases step with changes | ⟨now, rfl⟩
  · induction changes with
    | refl => exact earned
    | tail earlier step ih => exact step.readyEarned decided (consistent.changes earlier) ih
  · exact fun domain member => earned domain (List.mem_of_mem_filter member)

theorem runAll_readyEarned (decided : ∀ outcome, admits outcome → outcome.status ≠ .pending)
    (consistent : db.Consistent environment) (earned : db.ReadyEarned) {ops : List ServiceOp}
    (admitted : ∀ op ∈ ops, op.Admits admits) :
    (runAll environment ops db).ReadyEarned := by
  induction ops generalizing db with
  | nil => exact earned
  | cons op ops ih =>
      have step := ServiceOp.step consistent (admitted op (by simp))
      exact ih (consistent.step step) (step.readyEarned decided consistent earned)
        fun op member => admitted op (by simp [member])

end Readiness

/-! ## Safety -/

/-- In every state a run of the service reaches: a domain has at most one claim
that is not revoked, and exactly one while it is live; a ready domain is live
with a verified claim and all its checks passing, if every outcome in the run
was decided; a deleted domain has status `deleting` and no claim that is not
revoked, and stays as it is for as long as it exists; and applying outcomes,
decided or not, to a live domain returns. -/
theorem lifecycle_safety (environment : Environment) (ops : List ServiceOp) :
    (∀ domain ∈ (runAll environment ops {}).domains,
      domain.liveClaims.length ≤ 1 ∧
        (domain.isLive = true → domain.liveClaims.length = 1)) ∧
    ((∀ op ∈ ops, op.Admits fun outcome => outcome.status ≠ .pending) →
      ∀ domain ∈ (runAll environment ops {}).domains, domain.status = .ready →
        domain.isLive = true ∧
          (∃ claim, domain.liveClaims = [claim] ∧ claim.status = .verified) ∧
          ∀ checkType, ∃ check, domain.check checkType = some check ∧ check.status = .passing) ∧
    (∀ domain ∈ (runAll environment ops {}).domains, domain.isLive = false →
      domain.status = .deleting ∧ domain.liveClaims = [] ∧
        ∀ later, ExistsThroughout environment domain.id later (runAll environment ops {}) →
          ∀ row ∈ (runAll environment later (runAll environment ops {})).domains,
            row.id = domain.id → row = domain) ∧
    ∀ domain ∈ (runAll environment ops {}).domains, domain.isLive = true →
      ∀ first second now,
        (∃ value after, (applyDnsOutcomes domain first second now).run
          (runAll environment ops {}) = (.ok value, after)) ∧
        ∃ value after, (applyEdgeOutcomes domain first second now).run
          (runAll environment ops {}) = (.ok value, after) := by
  have empty := Database.consistent_empty environment
  have consistent := empty.runAll ops
  refine ⟨?_, ?_, ?_, ?_⟩
  · intro domain member
    have sound := consistent.sound domain member
    cases live : domain.isLive with
    | true =>
        obtain ⟨claim, single⟩ := (sound.live live).2
        simp [single]
    | false => simp [(sound.deleted live).2]
  · intro decided domain member ready
    have sound := consistent.sound domain member
    have earned : ({} : Database).ReadyEarned := fun domain member => by cases member
    obtain ⟨live, claimed, passing⟩ :=
      runAll_readyEarned (fun _ decided => decided) empty earned decided domain member ready
    refine ⟨live, ?_, fun checkType => ?_⟩
    · obtain ⟨claim, single, active⟩ := sound.activeClaim live
      rw [active, Option.map_some, Option.some.injEq] at claimed
      exact ⟨claim, single, claimed⟩
    · obtain ⟨check, present, rfl⟩ := sound.complete.exists_check checkType
      exact ⟨check, sound.complete.check_eq present,
        sound.complete.checksPassing_iff.mp passing check present⟩
  · intro domain member deleted
    obtain ⟨status, claims⟩ := (consistent.sound domain member).deleted deleted
    exact ⟨status, claims, fun later exist =>
      runAll_keeps_deleted consistent later member deleted exist⟩
  · intro domain member live first second now
    have holds := Holds.self consistent.keyed member
    have sound := consistent.sound domain member
    exact ⟨(applyDnsOutcomes_spec holds sound live first second now).returns,
      (applyEdgeOutcomes_spec holds sound live first second now).returns⟩

/-! ## A run to `ready` -/

/-- Registration, DNS verification and the readiness probe of one domain. -/
def readyRun : List ServiceOp :=
  [.createApplication "acme" "Acme" "edge.example.net" 1,
    .claimDomain 1 "forms.example.com" "workspace" ⟨2, 3, "token"⟩ 0,
    .applyDnsOutcomes 2 passingOutcome passingOutcome 1,
    .applyEdgeOutcomes 2 passingOutcome passingOutcome 2]

theorem lifecycle_safety_readyRun :
    (∃ domain ∈ (runAll sampleEnvironment readyRun {}).domains, domain.status = .ready) ∧
      ∀ domain ∈ (runAll sampleEnvironment readyRun {}).domains, domain.status = .ready →
        domain.isLive = true ∧
          (∃ claim, domain.liveClaims = [claim] ∧ claim.status = .verified) ∧
          ∀ checkType, ∃ check, domain.check checkType = some check ∧ check.status = .passing :=
  ⟨by decide +kernel, (lifecycle_safety sampleEnvironment readyRun).2.1
    (by simp [readyRun, ServiceOp.Admits, passingOutcome])⟩

/-- An outcome that is neither passing nor failing leaves a ready domain ready
without its checks passing. -/
theorem ready_with_pending_checks :
    ∃ domain ∈ (runAll sampleEnvironment
      (readyRun ++ [.applyDnsOutcomes 2 { status := .pending } { status := .pending } 3]) {}).domains,
      domain.isLive = true ∧ domain.status = .ready ∧
        ∃ check ∈ domain.checks, check.status ≠ .passing := by
  decide +kernel

end CustomDomain
