import CustomDomain.LifecycleStatements

/-!
# Registrations

What `claim_domain` and the legacy import leave in the database when they run
alone: one more domain, with its checks and its claim, or no domain at all.
-/

namespace CustomDomain

open Transaction

/-- Nothing but events, deliveries and lock rows differs. -/
structure Database.SameDomains (db after : Database) : Prop where
  setup : db.SameSetup after
  domains : after.domains = db.domains

/-- The tables are those of `db` with one more domain. -/
structure Adds (db : Database) (domain : Domain) (after : Database) : Prop where
  setup : db.SameSetup after
  domains : after.domains = db.domains ++ [domain]

theorem Database.SameDomains.refl (db : Database) : db.SameDomains db := ⟨.refl db, rfl⟩

theorem Database.SameDomains.locked (db : Database) (locks : List EdgeLock) :
    db.SameDomains { db with edgeLocks := locks } :=
  ⟨⟨rfl, rfl, rfl, rfl, rfl, rfl⟩, rfl⟩

/-! ## Locks and limits -/

section Limits

variable (db : Database)

theorem updateEdgeLock_spec (name holder : String) :
    (updateEdgeLock name holder).Returns db fun _ after =>
      ∃ locks, after = { db with edgeLocks := locks } := by
  unfold updateEdgeLock
  refine Program.Spec.of_write (Program.Spec.of_pure ?_)
  split
  next => exact ⟨_, rfl⟩
  next => exact ⟨db.edgeLocks, rfl⟩

theorem insertEdgeLock_spec (name : String) :
    (insertEdgeLock name).Returns db fun _ after =>
      ∃ locks, after = { db with edgeLocks := locks } := by
  unfold insertEdgeLock
  refine Program.Spec.of_write (Program.Spec.of_pure ?_)
  split
  next => exact ⟨db.edgeLocks, rfl⟩
  next => exact ⟨_, rfl⟩

theorem acquireLock_spec (name holder : String) :
    (acquireLock name holder).Returns db fun _ after =>
      ∃ locks, after = { db with edgeLocks := locks } := by
  unfold acquireLock
  refine (updateEdgeLock_spec db name _).bind ?_
  rintro matched _ ⟨locks, rfl⟩
  split
  next => exact .of_pure ⟨locks, rfl⟩
  next =>
    refine (insertEdgeLock_spec _ name).bind ?_
    rintro _ _ ⟨inserted, rfl⟩
    refine (updateEdgeLock_spec _ name _).bind ?_
    rintro _ _ ⟨updated, rfl⟩
    exact .of_pure ⟨updated, rfl⟩

theorem enforceLimit_spec (scope : LimitScope) (application : Option Uuid)
    (limit : Option Int) :
    (enforceLimit scope application limit).Spec db (fun _ after => after = db)
      fun _ after => after = db := by
  cases limit with
  | none => exact .of_pure rfl
  | some limit =>
      refine Program.Spec.readThen ?_
      unfold Program.require
      split_ifs
      · exact .of_pure rfl
      · exact .of_raise rfl

theorem enforce_spec (environment : Environment) (application : Application) :
    (enforce environment application).Spec db
      (fun _ after => ∃ locks, after = { db with edgeLocks := locks })
      fun _ after => ∃ locks, after = { db with edgeLocks := locks } := by
  have limits : ∀ (limit : Option Int) (locks : List EdgeLock),
      (do
        enforceLimit .application (some application.id) application.maxDomains
        enforceLimit .deployment none limit : Sql Unit).Spec { db with edgeLocks := locks }
      (fun _ after => ∃ locks, after = { db with edgeLocks := locks })
      fun _ after => ∃ locks, after = { db with edgeLocks := locks } := by
    intro limit locks
    refine ((enforceLimit_spec _ _ _ _).mono (fun _ _ post => post) ?_).bind ?_
    · rintro _ after rfl
      exact ⟨locks, rfl⟩
    · rintro _ after rfl
      exact (enforceLimit_spec _ _ _ _).mono (fun _ _ same => ⟨locks, same⟩)
        fun _ _ same => ⟨locks, same⟩
  unfold enforce
  have deployment : (deploymentLimit environment).Spec db (fun _ after => after = db)
      fun _ after => ∃ locks, after = { db with edgeLocks := locks } := by
    unfold deploymentLimit
    split
    next => exact .of_pure rfl
    next =>
      split_ifs
      · exact Program.Spec.of_raise ⟨db.edgeLocks, rfl⟩
      · exact .of_pure rfl
  refine deployment.bind ?_
  rintro limit after rfl
  cases limit with
  | none => exact limits none after.edgeLocks
  | some limit =>
      refine (acquireLock_spec after _ _).andThen ?_
      rintro _ _ ⟨locks, rfl⟩
      exact limits (some limit) locks

end Limits

/-! ## `claim_domain` -/

/-- What a registration has found out when it succeeds. -/
structure Registration (environment : Environment) (application : Application)
    (hostname reference : String) (fresh : Fresh) (now : Time) (db : Database)
    (domain : Domain) : Prop where
  active : application.status = .active
  stored : (db.application? application.id).isSome = true
  canonical : canonicalize environment.tables hostname false = .ok domain.hostname
  unclaimed : db.liveByHostname domain.hostname = none
  unused : db.domain? fresh.domainId = none
  unseen : ∀ row ∈ db.domains, ∀ other ∈ row.claims,
    other.id ≠ fresh.claimId ∧ other.token ≠ fresh.token
  eq : domain = (newDomain environment application domain.hostname reference fresh.domainId
    now).registered fresh.claimId fresh.token application.cnameTarget now

theorem insertDomain_spec (domain : Domain) (db : Database) :
    (insertDomain domain).Returns db fun conflict after =>
      conflict = domainConflict db domain ∧
        after = if conflict.isSome then db else { db with domains := db.domains ++ [domain] } := by
  unfold insertDomain
  exact .of_write (.of_pure ⟨rfl, rfl⟩)

theorem domainConflict_eq_none {db : Database} {domain : Domain}
    (free : domainConflict db domain = none) :
    db.domain? domain.id = none ∧ (db.application? domain.applicationId).isSome = true ∧
      db.liveByHostname domain.hostname = none := by
  unfold domainConflict at free
  split_ifs at free with known taken
  rw [not_or] at known
  exact ⟨by simpa using known.1, by simpa [Option.isSome_iff_ne_none] using known.2,
    by simpa using taken⟩

theorem Database.Keyed.append {db : Database} (keyed : db.Keyed) {domain : Domain}
    (unused : db.domain? domain.id = none) :
    ({ db with domains := db.domains ++ [domain] } : Database).Keyed := by
  unfold Database.Keyed at *
  rw [List.map_append, List.map_singleton, ← List.concat_eq_append]
  refine List.Nodup.concat ?_ keyed
  intro member
  obtain ⟨row, present, same⟩ := List.mem_map.mp member
  exact absurd (List.find?_eq_none.mp unused row present) (by simp [same])

/-- Holding a row that was just appended. -/
theorem Holds.appended {db base after : Database} {row domain : Domain}
    (holds : Holds base domain after) (rows : base.domains = db.domains ++ [row])
    (same : row.id = domain.id) (unused : db.domain? domain.id = none) :
    after.domains = db.domains ++ [domain] := by
  rw [holds.domains, rows, List.map_append, List.map_singleton, if_pos same]
  congr 1
  conv_rhs => rw [← List.map_id db.domains]
  refine List.map_congr_left fun other member => ?_
  have distinct := List.find?_eq_none.mp unused other member
  rw [if_neg (by simpa using distinct)]
  rfl

/-- The four checks of a new domain. -/
theorem insertChecks_spec {base db : Database} {domain : Domain}
    (holds : Holds base domain db) (bare : domain.checks = []) :
    (Program.foldEach CheckType.all domain fun domain checkType => do
      insertCheck domain.id { checkType := checkType }
      pure (domain.addCheck { checkType := checkType })).Returns db
      (Becomes base { domain with
        checks := CheckType.all.map fun checkType => { checkType := checkType } }) := by
  have step : ∀ {db : Database} {domain : Domain} (checkType : CheckType),
      Holds base domain db → domain.check checkType = none →
      (do
        insertCheck domain.id { checkType := checkType }
        pure (domain.addCheck { checkType := checkType }) : Sql Domain).Returns db
        (Becomes base (domain.addCheck { checkType := checkType })) :=
    fun checkType holds missing =>
      (insertCheck_spec holds missing).bind fun _ _ holds => .of_pure ⟨rfl, holds⟩
  refine (step .ownership holds (by simp [Domain.check, bare])).bind ?_
  rintro _ _ ⟨rfl, holds⟩
  refine (step .routing holds (by simp [Domain.check, Domain.addCheck, bare])).bind ?_
  rintro _ _ ⟨rfl, holds⟩
  refine (step .certificate holds (by simp [Domain.check, Domain.addCheck, bare])).bind ?_
  rintro _ _ ⟨rfl, holds⟩
  refine (step .origin holds (by simp [Domain.check, Domain.addCheck, bare])).bind ?_
  rintro _ _ ⟨rfl, holds⟩
  have same : (((domain.addCheck { checkType := .ownership }).addCheck
      { checkType := .routing }).addCheck { checkType := .certificate }).addCheck
      { checkType := .origin } = { domain with
        checks := CheckType.all.map fun checkType => { checkType := checkType } } := by
    simp [Domain.addCheck, bare, CheckType.all]
  rw [same] at holds ⊢
  exact .of_pure ⟨rfl, holds⟩

theorem claimDomain_spec {db : Database} (keyed : db.Keyed) (environment : Environment)
    (application : Application) (hostname reference : String) (fresh : Fresh) (now : Time) :
    (claimDomain environment application hostname reference fresh now).Spec db
      (fun domain after =>
        Registration environment application hostname reference fresh now db domain ∧
          Adds db domain after)
      fun error after => (∃ constraint, error = .integrityError constraint) ∨
        db.SameDomains after := by
  unfold claimDomain
  refine Program.Spec.requireThen (fun active => ?_) fun _ => .inr (.refl db)
  refine Program.Spec.requireThen (fun _ => ?_) fun _ => .inr (.refl db)
  split
  next => exact Program.Spec.of_raise (.inr (.refl db))
  next canonical accepted =>
    unfold lockApplication
    refine Program.Spec.of_write ?_
    refine ((enforce_spec db environment application).mono (fun _ _ post => post) ?_).bind ?_
    · rintro _ _ ⟨locks, rfl⟩
      exact .inr (.locked db locks)
    rintro _ _ ⟨locks, rfl⟩
    refine ((enforceWindow_spec _ _ _ _ _ _).mono (fun _ _ post => post) ?_).bind ?_
    · rintro _ _ ⟨-, rfl⟩
      exact .inr (.locked db locks)
    rintro _ after unchanged
    rw [unchanged]
    refine (insertDomain_spec _ _).andThen ?_
    rintro conflict after ⟨found, stored⟩
    cases conflict with
    | some conflict =>
        rw [stored, Option.isSome_some, if_pos rfl]
        cases conflict with
        | hostname => exact .of_raise (.inr (.locked db locks))
        | other => exact .of_raise (.inl ⟨_, rfl⟩)
    | none =>
        obtain ⟨unused, application?, unclaimed⟩ := domainConflict_eq_none found.symm
        have keyed' : after.Keyed := by
          rw [stored]
          exact keyed.append unused
        have member : newDomain environment application canonical reference fresh.domainId now ∈
            after.domains := by
          rw [stored]
          simp
        have holds := Holds.self keyed' member
        refine (insertChecks_spec holds rfl).andThen ?_
        rintro _ checked ⟨rfl, holds⟩
        refine (recordEvent_holds holds _ _ _).andThen fun _ logged holds => ?_
        refine ((issueClaim_spec holds fresh.claimId fresh.token application.cnameTarget now).mono
          (fun _ _ post => post) fun _ _ fail => .inl fail).bind ?_
        rintro _ issued ⟨⟨rfl, issuedHolds⟩, unseen⟩
        refine (refresh_spec issuedHolds).mono ?_ (by simp)
        rintro _ refreshed ⟨rfl, final⟩
        have rows : after.domains = db.domains ++ [newDomain environment application canonical
            reference fresh.domainId now] := by rw [stored]; rfl
        have setup : db.SameSetup after := by
          rw [stored]
          exact ⟨rfl, rfl, rfl, rfl, rfl, rfl⟩
        refine ⟨⟨active, application?, accepted, unclaimed, unused, ?_, rfl⟩,
          setup.trans final.setup, final.appended rows rfl unused⟩
        intro other member
        refine unseen other ?_
        rw [holds.appended rows rfl unused]
        exact List.mem_append_left _ member

end CustomDomain
