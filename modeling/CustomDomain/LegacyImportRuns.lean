import CustomDomain.ServiceRuns

/-!
# Runs of the legacy import

What one entry of an import comes to, in the database it is reached in, and so what a
whole import reports: when every entry is counted, and when a second import finds what
the first one brought in.
-/

namespace CustomDomain.LegacyImport

open Transaction PythonText

/-! ## What decides an entry -/

section Conditions

variable (environment : Environment) (application : Application)

/-- `MAX_DOMAINS` is unset or at least 1. -/
def ValidLimit : Prop := ∀ limit, environment.maxDomains = some limit → 1 ≤ limit

/-- The live domains have reached the limit of the application or of the deployment. -/
def LimitReached (db : Database) : Prop :=
  (∃ limit, application.maxDomains = some limit ∧
    limit ≤ (db.liveDomains (some application.id)).length) ∨
  ∃ limit, environment.maxDomains = some limit ∧ limit ≤ (db.liveDomains none).length

/-- The registrations of the last hour use up the budget of the application. -/
def WindowFull (now : Time) (db : Database) : Prop :=
  registrationMaxPerWindow ≤ (eventsSince db (fun event =>
    decide (event.applicationId = application.id) && isDomainCreated event.payload)
      (now - registrationWindow)).length

/-- A reference that `claim_domain` takes. -/
def ValidReference (reference : String) : Prop :=
  (strip reference).isEmpty = false ∧ reference.length ≤ maxReferenceLength

/-- The database can hold the rows of a registration, if the hostname is free also that of
the claim. -/
def Storable (hostname reference : String) (db : Database) : Prop :=
  environment.backend.stores (strip reference) = true ∧
    (db.liveByHostname hostname = none →
      environment.backend.storesName (challengeLabel ++ "." ++ hostname) = true)

end Conditions

/-! ## The limits -/

section Limits

variable (db : Database)

theorem enforceLimit_exact (scope : LimitScope) (application : Option Uuid) (limit : Option Int) :
    (enforceLimit scope application limit).Spec db
      (fun _ after => after = db ∧
        ∀ value, limit = some value → ((db.liveDomains application).length : Int) < value)
      fun error after => after = db ∧ ∃ value, limit = some value ∧
        value ≤ (db.liveDomains application).length ∧
        ∃ live, error = .domainLimitReached scope value live := by
  cases limit with
  | none => exact .of_pure ⟨rfl, nofun⟩
  | some value =>
      refine Program.Spec.readThen ?_
      unfold Program.require
      split_ifs with below
      · refine .of_pure ⟨rfl, fun other same => ?_⟩
        cases same
        exact below
      · exact .of_raise ⟨rfl, value, rfl, not_lt.mp below, _, rfl⟩

/-- What `enforce` decides. -/
theorem enforce_exact (environment : Environment) (application : Application) :
    (enforce environment application).Spec db
      (fun _ after => (∃ locks, after = { db with edgeLocks := locks }) ∧
        ValidLimit environment ∧ ¬ LimitReached environment application db)
      fun error after => (∃ locks, after = { db with edgeLocks := locks }) ∧
        (((∃ message, error = .invalidLimit message) ∧ ¬ ValidLimit environment) ∨
          ((∃ scope limit live, error = .domainLimitReached scope limit live) ∧
            ValidLimit environment ∧ LimitReached environment application db)) := by
  have limits (valid : ValidLimit environment) (locks : List EdgeLock) :
      (do
        enforceLimit .application (some application.id) application.maxDomains
        enforceLimit .deployment none environment.maxDomains : Sql Unit).Spec
        { db with edgeLocks := locks }
        (fun _ after => (∃ locks, after = { db with edgeLocks := locks }) ∧
          ValidLimit environment ∧ ¬ LimitReached environment application db)
        fun error after => (∃ locks, after = { db with edgeLocks := locks }) ∧
          (((∃ message, error = .invalidLimit message) ∧ ¬ ValidLimit environment) ∨
            ((∃ scope limit live, error = .domainLimitReached scope limit live) ∧
              ValidLimit environment ∧ LimitReached environment application db)) := by
    refine ((enforceLimit_exact _ _ _ _).mono (fun _ _ post => post) ?_).bind ?_
    · rintro error _ ⟨rfl, limit, configured, reached, live, rfl⟩
      exact ⟨⟨locks, rfl⟩, .inr ⟨⟨_, _, _, rfl⟩, valid, .inl ⟨limit, configured, reached⟩⟩⟩
    rintro _ _ ⟨rfl, below⟩
    refine (enforceLimit_exact _ _ _ _).mono ?_ ?_
    · rintro _ _ ⟨rfl, below'⟩
      refine ⟨⟨locks, rfl⟩, valid, ?_⟩
      rintro (⟨limit, configured, reached⟩ | ⟨limit, configured, reached⟩)
      · exact absurd (below limit configured) (not_lt.mpr reached)
      · exact absurd (below' limit configured) (not_lt.mpr reached)
    · rintro error _ ⟨rfl, limit, configured, reached, live, rfl⟩
      exact ⟨⟨locks, rfl⟩, .inr ⟨⟨_, _, _, rfl⟩, valid, .inr ⟨limit, configured, reached⟩⟩⟩
  unfold enforce deploymentLimit
  cases configured : environment.maxDomains with
  | none =>
      have valid : ValidLimit environment := fun limit same => by simp [configured] at same
      have run := limits valid db.edgeLocks
      rw [configured] at run
      exact run
  | some limit =>
      simp only
      split_ifs with small
      · refine Program.Spec.of_raise ⟨⟨db.edgeLocks, rfl⟩, .inl ⟨⟨_, rfl⟩, fun valid => ?_⟩⟩
        exact absurd (valid limit configured) (not_le.mpr small)
      · have valid : ValidLimit environment := by
          intro other same
          rw [configured] at same
          cases same
          exact not_lt.mp small
        refine (acquireLock_spec db _ _).andThen ?_
        rintro _ _ ⟨locks, rfl⟩
        have run := limits valid locks
        rw [configured] at run
        exact run

theorem enforceRegistrationLimit_exact (application : Application) (now : Time) :
    (enforceRegistrationLimit application now).Spec db
      (fun _ after => after = db ∧ ¬ WindowFull application now db)
      fun error after => after = db ∧ WindowFull application now db ∧
        ∃ message wait, error = .rateLimited message wait := by
  unfold enforceRegistrationLimit enforceWindow Program.Spec
  simp only [Program.run_bind, Program.run_read]
  split_ifs with full
  · exact ⟨rfl, full, _, _, rfl⟩
  · exact ⟨rfl, full⟩

end Limits

/-! ## One registration -/

section Registration

/-- The identifiers that are drawn for a registration are unused. -/
structure Unused (db : Database) (fresh : Fresh) : Prop where
  domain : db.domain? fresh.domainId = none
  claim : ∀ row ∈ db.domains, ∀ other ∈ row.claims,
    other.id ≠ fresh.claimId ∧ other.token ≠ fresh.token

variable {environment : Environment} {application : Application} {hostname reference : String}
variable {fresh : Fresh} {now : Time} {db : Database}

variable (environment application reference now db) in
/-- A registration that is not refused before its hostname is looked up. -/
structure Admitted : Prop where
  reference : ValidReference reference
  limit : ValidLimit environment
  below : ¬ LimitReached environment application db
  budget : ¬ WindowFull application now db

variable (environment application hostname reference now db) in
/-- Why `claim_domain` refuses an active application, in the order of its checks. -/
inductive Refused : ServiceError → Prop where
  | reference (invalid : ¬ ValidReference reference) : Refused .invalidReference
  | hostname {refused : InvalidHostname}
      (invalid : canonicalize environment.tables hostname false = .error refused) :
      Refused (.invalidHostname refused)
  | invalidLimit {message : String} (invalid : ¬ ValidLimit environment) :
      Refused (.invalidLimit message)
  | limited {scope : LimitScope} {limit : Int} {live : Nat} (valid : ValidReference reference)
      (configured : ValidLimit environment) (reached : LimitReached environment application db) :
      Refused (.domainLimitReached scope limit live)
  | rateLimited {message : String} {wait : Int}
      (below : ¬ LimitReached environment application db)
      (full : WindowFull application now db) : Refused (.rateLimited message wait)
  | taken {canonical : String} {live : Domain}
      (admitted : Admitted environment application reference now db)
      (accepted : canonicalize environment.tables hostname false = .ok canonical)
      (found : db.liveByHostname canonical = some live) :
      Refused (.hostnameAlreadyClaimed canonical)

theorem claimDomain_exact (keyed : db.Keyed) (active : application.status = .active)
    (stored : (db.application? application.id).isSome = true) (unused : Unused db fresh) :
    (claimDomain environment application hostname reference fresh now).Spec db
      (fun _ _ => Admitted environment application reference now db)
      fun error _ => Refused environment application hostname reference now db error := by
  unfold claimDomain
  refine Program.Spec.requireThen (fun _ => ?_) fun suspended => absurd active suspended
  refine Program.Spec.requireThen (fun valid => ?_) fun invalid => .reference invalid
  split
  next refused invalid => exact Program.Spec.of_raise (.hostname invalid)
  next canonical accepted =>
    unfold lockApplication
    refine Program.Spec.of_write ?_
    refine ((enforce_exact db environment application).mono (fun _ _ post => post) ?_).bind ?_
    · rintro error _ ⟨-, ⟨⟨message, rfl⟩, invalid⟩ | ⟨⟨scope, limit, live, rfl⟩, configured, reached⟩⟩
      · exact .invalidLimit invalid
      · exact .limited valid configured reached
    rintro _ _ ⟨⟨locks, rfl⟩, configured, below⟩
    refine ((enforceRegistrationLimit_exact _ application now).mono (fun _ _ post => post) ?_).bind ?_
    · rintro error _ ⟨rfl, full, message, wait, rfl⟩
      exact .rateLimited below full
    rintro _ _ ⟨rfl, budget⟩
    have admitted : Admitted environment application reference now db :=
      ⟨valid, configured, below, budget⟩
    refine (insertDomain_spec _ _).andThen ?_
    rintro conflict after ⟨found, rows⟩
    have free : ¬ ((db.domain? fresh.domainId).isSome ∨
        (db.application? application.id).isNone) := by
      rw [unused.domain, Option.isNone_iff_eq_none, not_or]
      exact ⟨by simp, Option.isSome_iff_ne_none.mp stored⟩
    have decided : conflict = if (db.liveByHostname canonical).isSome then some .hostname
        else none := found.trans (if_neg free)
    cases live : db.liveByHostname canonical with
    | some row =>
        rw [live, Option.isSome_some, if_pos rfl] at decided
        rw [decided]
        exact .of_raise (.taken admitted accepted live)
    | none =>
        rw [live, Option.isSome_none, if_neg Bool.false_ne_true] at decided
        rw [decided, Option.isSome_none, if_neg Bool.false_ne_true] at rows
        rw [decided]
        have keyed' : after.Keyed := by
          rw [rows]
          exact keyed.append unused.domain
        have member : newDomain environment application canonical reference fresh.domainId now ∈
            after.domains := by
          rw [rows]
          simp
        refine (insertChecks_spec (Holds.self keyed' member) rfl).andThen ?_
        rintro _ checked ⟨rfl, holds⟩
        refine (recordEvent_holds holds _ _ _).andThen fun _ logged holds => ?_
        have unseen : ∀ row ∈ logged.domains, ∀ other ∈ row.claims,
            other.id ≠ fresh.claimId ∧ other.token ≠ fresh.token := by
          have appended : after.domains = db.domains ++ [newDomain environment application
              canonical reference fresh.domainId now] := by rw [rows]
          rw [holds.appended appended rfl unused.domain]
          intro row present other issued
          rcases List.mem_append.mp present with old | new
          · exact unused.claim row old other issued
          · rw [List.mem_singleton.mp new] at issued
            cases issued
        refine (issueClaim_returns holds rfl unseen _ _).andThen ?_
        rintro _ issued ⟨rfl, holds⟩
        exact (refresh_spec holds).mono (fun _ _ _ => admitted) fun _ _ never => never.elim

/-- How the import goes on after a registration. -/
def Attempted (environment : Environment) (application : Application)
    (hostname reference : String) (fresh : Fresh) (now : Time) (db after : Database) :
    ClaimAttempt → Prop
  | .registered domain =>
      Registration environment application hostname reference fresh now db domain ∧
        Adds db domain after ∧ Admitted environment application reference now db ∧
      Storable environment hostname reference db
  | .limitReached => ValidReference reference ∧ ValidLimit environment ∧
      LimitReached environment application db ∧ db.SameDomains after
  | .alreadyClaimed => Admitted environment application reference now db ∧
      Storable environment hostname reference db ∧ db.SameDomains after ∧
      ∃ live, db.liveByHostname hostname = some live

/-- What ends an import: a reference or a limit that is not valid, a full window, or a row
that the database cannot hold. -/
def Ends (environment : Environment) (application : Application) (hostname reference : String)
    (now : Time) (db : Database) : Prop :=
  ¬ ValidReference reference ∨ ¬ ValidLimit environment ∨
    (¬ LimitReached environment application db ∧
      (WindowFull application now db ∨ ¬ Storable environment hostname reference db))

/-- The rows of a registration can be held exactly if its two texts can. -/
theorem storesRows_iff {domain : Domain}
    (registration : Registration environment application hostname reference fresh now db domain)
    (canonical : domain.hostname = hostname) :
    environment.backend.storesRows domain = true ↔ Storable environment hostname reference db := by
  have free := registration.unclaimed
  rw [canonical] at free
  have reference' : domain.reference = strip reference := by rw [registration.eq]; rfl
  have issued : domain.claims.all (fun claim => environment.backend.storesName
      claim.txtRecordName) = environment.backend.storesName (challengeLabel ++ "." ++ hostname) := by
    rw [registration.eq, ← canonical]
    exact Bool.and_true _
  rw [Backend.storesRows, Bool.and_eq_true, reference', issued, Storable, free]
  simp

theorem attemptClaim_exact (keyed : db.Keyed) (active : application.status = .active)
    (stored : (db.application? application.id).isSome = true) (unused : Unused db fresh)
    (canonical : canonicalize environment.tables hostname false = .ok hostname) :
    (attemptClaim environment application hostname reference fresh now).Spec db
      (fun attempt after =>
        Attempted environment application hostname reference fresh now db after attempt)
      fun _ _ => Ends environment application hostname reference now db := by
  -- An error of the registration itself, or a `DataError`.
  have claimed := ((claimDomain_spec keyed environment application hostname reference fresh
    now).and (claimDomain_exact keyed active stored unused)).mono (fun _ _ post => post)
      fun error after refused =>
        (.inr refused : (error = .dataError ∧
          Ends environment application hostname reference now db) ∨ _)
  unfold attemptClaim
  refine Program.Spec.tryCatch (claimed.bind fun domain after registered => ?_) ?_
  · obtain ⟨⟨registration, adds⟩, admitted⟩ := registered
    have storable := storesRows_iff registration
      (Except.ok.inj (registration.canonical.symm.trans canonical))
    refine .requireThen (fun held => ?_) fun refused => ?_
    · exact .of_pure (⟨registration, adds, admitted, storable.mp held⟩ : Attempted environment
        application hostname reference fresh now db after (.registered domain))
    · exact .inl ⟨rfl, .inr (.inr ⟨admitted.below, .inr (storable.not.mp refused)⟩)⟩
  rintro error after (⟨rfl, ends⟩ | ⟨rows, refused⟩)
  · exact .of_raise ends
  have same (other : ∀ constraint, error ≠ .integrityError constraint) : db.SameDomains after := by
    rcases rows with ⟨constraint, here⟩ | same
    · exact absurd here (other constraint)
    · exact same
  cases refused with
  | reference invalid => exact .of_raise (.inl invalid)
  | hostname invalid =>
      rw [canonical] at invalid
      cases invalid
  | invalidLimit invalid => exact .of_raise (.inr (.inl invalid))
  | limited valid configured reached =>
      exact .of_pure ⟨valid, configured, reached, same (by simp)⟩
  | rateLimited below full => exact .of_raise (.inr (.inr ⟨below, .inl full⟩))
  | taken admitted accepted found =>
      cases canonical.symm.trans accepted
      simp only
      split_ifs with held
      · refine .of_pure ⟨admitted, ⟨held, fun free => ?_⟩, same (by simp), _, found⟩
        rw [found] at free
        cases free
      · exact .of_raise (.inr (.inr ⟨admitted.below, .inr fun storable => held storable.1⟩))

end Registration

/-! ## One entry -/

/-- How an entry is counted. -/
inductive Outcome where
  | imported (domain : Domain)
  | existing (domain : Domain)
  | skipped (hostname reason : String)

end LegacyImport

/-- Two draws share no identifier and no token. -/
structure Fresh.Apart (first second : Fresh) : Prop where
  domain : first.domainId ≠ second.domainId
  claim : first.claimId ≠ second.claimId ∧ first.token ≠ second.token

def ImportReport.add (report : ImportReport) : LegacyImport.Outcome → ImportReport
  | .imported domain => { report with imported := report.imported ++ [domain] }
  | .existing domain => { report with existing := report.existing ++ [domain] }
  | .skipped hostname reason => { report with skipped := report.skipped ++ [(hostname, reason)] }

theorem ImportReport.add_injective {report : ImportReport} {first second : LegacyImport.Outcome}
    (same : report.add first = report.add second) : first = second := by
  cases first <;> cases second <;> simp_all [ImportReport.add]

theorem ImportReport.mem_imported {report : ImportReport} {outcomes : List LegacyImport.Outcome}
    {domain : Domain} : domain ∈ (outcomes.foldl ImportReport.add report).imported ↔
      domain ∈ report.imported ∨ .imported domain ∈ outcomes := by
  induction outcomes generalizing report with
  | nil => simp
  | cons outcome outcomes ih =>
      rw [List.foldl_cons, ih]
      cases outcome <;> simp [ImportReport.add, or_assoc]

theorem ImportReport.mem_existing {report : ImportReport} {outcomes : List LegacyImport.Outcome}
    {domain : Domain} : domain ∈ (outcomes.foldl ImportReport.add report).existing ↔
      domain ∈ report.existing ∨ .existing domain ∈ outcomes := by
  induction outcomes generalizing report with
  | nil => simp
  | cons outcome outcomes ih =>
      rw [List.foldl_cons, ih]
      cases outcome <;> simp [ImportReport.add, or_assoc]

namespace LegacyImport

open Transaction

section Entry

variable (environment : Environment) (application : Application) (options : ImportOptions)
variable (now : Time)

/-- The entry has a canonical hostname and a reference. -/
structure Mapped (entry : LegacyDomain) (hostname reference : String) : Prop where
  accepted : canonicalize environment.tables entry.hostname false = .ok hostname
  reference : options.reference hostname entry.hostname = some reference

/-- The row was registered under the identifiers that were drawn for it. -/
structure Drawn (domain : Domain) (fresh : Fresh) : Prop where
  id : domain.id = fresh.domainId
  claims : ∀ claim ∈ domain.claims, claim.id = fresh.claimId ∧ claim.token = fresh.token

/-- What an entry comes to, with the reason. -/
inductive Settled (fresh : Fresh) (entry : LegacyDomain) (db : Database) :
    Outcome → Database → Prop where
  | refused {refused : InvalidHostname}
      (invalid : canonicalize environment.tables entry.hostname false = .error refused) :
      Settled fresh entry db (.skipped entry.hostname refused.code) db
  | unmapped {hostname : String}
      (accepted : canonicalize environment.tables entry.hostname false = .ok hostname)
      (missing : options.reference hostname entry.hostname = none) :
      Settled fresh entry db (.skipped hostname "missing_reference") db
  | limited {hostname reference : String} {after : Database}
      (mapped : Mapped environment options entry hostname reference)
      (valid : ValidReference reference) (configured : ValidLimit environment)
      (reached : LimitReached environment application db) (same : db.SameDomains after) :
      Settled fresh entry db (.skipped hostname "domain_limit_reached") after
  | existing {hostname reference : String} {live : Domain} {after : Database}
      (mapped : Mapped environment options entry hostname reference)
      (admitted : Admitted environment application reference now db)
      (storable : Storable environment hostname reference db)
      (found : db.liveByHostname hostname = some live)
      (own : live.applicationId = application.id) (same : db.SameDomains after) :
      Settled fresh entry db (.existing live) after
  | taken {hostname reference : String} {live : Domain} {after : Database}
      (mapped : Mapped environment options entry hostname reference)
      (admitted : Admitted environment application reference now db)
      (storable : Storable environment hostname reference db)
      (found : db.liveByHostname hostname = some live)
      (other : live.applicationId ≠ application.id) (same : db.SameDomains after) :
      Settled fresh entry db (.skipped hostname "hostname_already_claimed") after
  | imported {reference : String} {domain : Domain} {after : Database}
      (mapped : Mapped environment options entry domain.hostname reference)
      (admitted : Admitted environment application reference now db)
      (storable : Storable environment domain.hostname reference db)
      (unclaimed : db.liveByHostname domain.hostname = none)
      (unused : db.domain? domain.id = none) (drawn : Drawn domain fresh)
      (adds : Adds db domain after) :
      Settled fresh entry db (.imported domain) after

variable {environment application options now}
variable {fresh : Fresh} {entry : LegacyDomain} {db after : Database} {outcome : Outcome}

/-- An entry leaves the rows alone, or adds one under unused identifiers. -/
theorem Settled.rows
    (settled : Settled environment application options now fresh entry db outcome after) :
    db.SameSetup after ∧ (after.domains = db.domains ∨
      ∃ row, after.domains = db.domains ++ [row] ∧ db.domain? row.id = none ∧ Drawn row fresh) := by
  have quiet (same : db.SameDomains after) : db.SameSetup after ∧
      (after.domains = db.domains ∨ ∃ row, after.domains = db.domains ++ [row] ∧
        db.domain? row.id = none ∧ Drawn row fresh) := ⟨same.setup, .inl same.domains⟩
  cases settled with
  | refused => exact quiet (.refl db)
  | unmapped => exact quiet (.refl db)
  | limited _ _ _ _ same => exact quiet same
  | existing _ _ _ _ _ same => exact quiet same
  | taken _ _ _ _ _ same => exact quiet same
  | imported _ _ _ _ unused drawn adds =>
      exact ⟨adds.setup, .inr ⟨_, adds.domains, unused, drawn⟩⟩

theorem Settled.kept
    (settled : Settled environment application options now fresh entry db outcome after) :
    ∃ rows, after.domains = db.domains ++ rows := by
  obtain ⟨-, same | ⟨row, added, -⟩⟩ := settled.rows
  · exact ⟨[], by rw [same, List.append_nil]⟩
  · exact ⟨[row], added⟩

theorem Settled.keyed
    (settled : Settled environment application options now fresh entry db outcome after)
    (keyed : db.Keyed) : after.Keyed := by
  unfold Database.Keyed
  obtain ⟨-, same | ⟨row, added, unused, -⟩⟩ := settled.rows
  · rw [same]
    exact keyed
  · rw [added]
    exact keyed.append unused

theorem Settled.stored
    (settled : Settled environment application options now fresh entry db outcome after)
    (stored : (db.application? application.id).isSome = true) :
    (after.application? application.id).isSome = true := by
  unfold Database.application? at stored ⊢
  rw [settled.rows.1.applications]
  exact stored

/-- Identifiers drawn apart from those of the entry stay unused. -/
theorem Settled.unused
    (settled : Settled environment application options now fresh entry db outcome after)
    {other : Fresh} (unused : Unused db other) (apart : fresh.Apart other) :
    Unused after other := by
  obtain ⟨-, same | ⟨row, added, -, drawn⟩⟩ := settled.rows
  · constructor
    · unfold Database.domain?
      rw [same]
      exact unused.domain
    · rw [same]
      exact unused.claim
  · constructor
    · have absent := unused.domain
      unfold Database.domain? at absent ⊢
      rw [added, List.find?_append, absent]
      simp [drawn.id, apart.domain]
    · rw [added]
      intro stored member claim issued
      rcases List.mem_append.mp member with old | new
      · exact unused.claim stored old claim issued
      · rw [List.mem_singleton.mp new] at issued
        obtain ⟨id, token⟩ := drawn.claims claim issued
        rw [id, token]
        exact apart.claim

/-- The row that an import registers and adopts. -/
theorem adoptDomain_settled {hostname reference : String} {domain : Domain} {added : Database}
    (keyed : db.Keyed)
    (mapped : Mapped environment options entry hostname reference)
    (canonical : canonicalize environment.tables hostname false = .ok hostname)
    (registration : Registration environment application hostname reference fresh now db domain)
    (adds : Adds db domain added) (admitted : Admitted environment application reference now db)
    (storable : Storable environment hostname reference db) (upstream : Option String) :
    (adoptDomain domain upstream options.grandfather now).Returns added fun adopted last =>
      Settled environment application options now fresh entry db (.imported adopted) last := by
  have named : domain.hostname = hostname := by
    have same := registration.canonical
    rw [canonical] at same
    exact (Except.ok.inj same).symm
  have id : domain.id = fresh.domainId := by rw [registration.eq]; rfl
  have unused : db.domain? domain.id = none := by rw [id]; exact registration.unused
  have keyed' : added.Keyed := by
    unfold Database.Keyed
    rw [adds.domains]
    exact keyed.append unused
  have stored : domain ∈ added.domains := by rw [adds.domains]; simp
  have sound : domain.Sound := by
    rw [registration.eq]
    exact Domain.registered_sound rfl (by simp [newDomain]) _ _ _ _
  have live : domain.isLive = true := by rw [registration.eq]; rfl
  have new : domain.status = .pendingDns := by rw [registration.eq]; rfl
  refine (adoptDomain_spec (Holds.self keyed' stored) sound live new upstream _ now).mono ?_
    fun _ _ never => never
  rintro _ last ⟨rfl, holds⟩
  have alike : domain.Alike (if options.grandfather then domain.adopted now else domain) := by
    split
    next => exact domain.adopted_alike now
    next => exact .refl domain
  have drawn : Drawn (if options.grandfather then domain.adopted now else domain) fresh := by
    refine ⟨alike.id.trans id, fun claim issued => ?_⟩
    have label : Domain.claimLabel claim ∈ domain.claims.map Domain.claimLabel := by
      rw [← alike.labels]
      exact List.mem_map_of_mem issued
    obtain ⟨first, only, same⟩ := List.mem_map.mp label
    rw [registration.eq] at only
    rw [List.mem_singleton.mp only] at same
    exact ⟨(congrArg Prod.fst same).symm, (congrArg (fun label => label.2.1) same).symm⟩
  have mapped' : Mapped environment options entry
      (if options.grandfather then domain.adopted now else domain).hostname reference := by
    rw [alike.hostname, named]
    exact mapped
  refine .imported mapped' admitted ?_ ?_ ?_ drawn ⟨adds.setup.trans holds.setup,
    holds.appended adds.domains alike.id.symm ?_⟩
  · rw [alike.hostname, named]
    exact storable
  · rw [alike.hostname]
    exact registration.unclaimed
  · rw [alike.id]
    exact unused
  · rw [alike.id]
    exact unused

theorem findLiveByHostname_exact {hostname : String} (keyed : after.Keyed)
    (canonical : canonicalize environment.tables hostname false = .ok hostname) :
    (findLiveByHostname environment hostname).run after =
      (.ok ((after.liveByHostname hostname).map fun domain =>
        ⟨domain, after.application? domain.applicationId⟩), after) := by
  unfold findLiveByHostname
  rw [canonical]
  exact selectDomain_run fun domain found => keyed.domain?_eq (List.mem_of_find?_eq_some found)

variable (application now) in
/-- One entry: the report gains one outcome, or the import ends. -/
theorem importEntry_exact (lawful : environment.tables.Lawful) (keyed : db.Keyed)
    (active : application.status = .active)
    (stored : (db.application? application.id).isSome = true)
    (unused : Unused db fresh) (report : ImportReport) :
    (importEntry environment application options report entry fresh now).Spec db
      (fun result after => ∃ outcome, result = report.add outcome ∧
        Settled environment application options now fresh entry db outcome after)
      fun _ _ => ∃ hostname reference, Mapped environment options entry hostname reference ∧
        Ends environment application hostname reference now db := by
  unfold importEntry
  split
  next refused invalid => exact .of_pure ⟨_, rfl, .refused invalid⟩
  next hostname accepted =>
    split
    next missing => exact .of_pure ⟨_, rfl, .unmapped accepted missing⟩
    next reference found =>
      have mapped : Mapped environment options entry hostname reference := ⟨accepted, found⟩
      have canonical := canonicalize_fixed lawful accepted
      refine ((attemptClaim_exact keyed active stored unused canonical).mono
        (fun _ _ post => post) fun _ _ ends => ⟨hostname, reference, mapped, ends⟩).bind ?_
      intro attempt after attempted
      cases attempt with
      | registered domain =>
          obtain ⟨registration, adds, admitted, storable⟩ := attempted
          exact (adoptDomain_settled keyed mapped canonical registration adds admitted storable
            entry.upstream).andThen fun _ _ settled => .of_pure ⟨_, rfl, settled⟩
      | limitReached =>
          obtain ⟨valid, configured, reached, same⟩ := attempted
          exact .of_pure ⟨_, rfl, .limited mapped valid configured reached same⟩
      | alreadyClaimed =>
          obtain ⟨admitted, storable, same, live, taken⟩ := attempted
          have keyed' : after.Keyed := by
            unfold Database.Keyed
            rw [same.domains]
            exact keyed
          have taken' : after.liveByHostname hostname = some live := by
            unfold Database.liveByHostname
            rw [same.domains]
            exact taken
          have ran := findLiveByHostname_exact keyed' canonical
          rw [taken'] at ran
          have read : (findLiveByHostname environment hostname).Returns after fun found last =>
              found = some ⟨live, after.application? live.applicationId⟩ ∧ last = after :=
            .of_run ran ⟨rfl, rfl⟩
          refine read.andThen ?_
          rintro _ _ ⟨rfl, rfl⟩
          simp only
          split_ifs with own
          · exact .of_pure ⟨_, rfl, .existing mapped admitted storable taken own same⟩
          · exact .of_pure ⟨_, rfl, .taken mapped admitted storable taken own same⟩

end Entry

/-! ## Every entry once -/

section Runs

variable (environment : Environment) (application : Application) (options : ImportOptions)

/-- What an entry is counted as names the entry; a skipped one has its reason. -/
def Names (entry : LegacyDomain) : Outcome → Prop
  | .imported domain | .existing domain =>
      ∃ reference, Mapped environment options entry domain.hostname reference
  | .skipped hostname reason =>
      (∃ refused, canonicalize environment.tables entry.hostname false = .error refused ∧
        hostname = entry.hostname ∧ reason = refused.code) ∨
      (canonicalize environment.tables entry.hostname false = .ok hostname ∧
        reason ∈ ["missing_reference", "domain_limit_reached", "hostname_already_claimed"])

/-- The entry has a reference, and its hostname is live under the application. -/
def OwnLive (entry : LegacyDomain) (db : Database) (live : Domain) : Prop :=
  ∃ hostname reference, Mapped environment options entry hostname reference ∧
    db.liveByHostname hostname = some live ∧ live.applicationId = application.id

/-- The entry is counted once, as `existing` when the application has the hostname, and no
row that is stored is written to. -/
structure Counted (entry : LegacyDomain) (db : Database) (outcome : Outcome) (next : Database) :
    Prop where
  names : Names environment options entry outcome
  own : ∀ live, OwnLive environment application options entry db live → outcome = .existing live
  kept : ∃ rows, next.domains = db.domains ++ rows

variable (now : Time)

/-- The condition on an entry and the rows it is reached in. -/
structure Good (entry : LegacyDomain) (db : Database) : Prop where
  reference : ∀ hostname reference, Mapped environment options entry hostname reference →
    ValidReference reference
  limit : ∀ hostname reference, Mapped environment options entry hostname reference →
    ValidLimit environment
  below : ∀ live, OwnLive environment application options entry db live →
    ¬ LimitReached environment application db
  budget : ∀ hostname reference, Mapped environment options entry hostname reference →
    WindowFull application now db → LimitReached environment application db
  storable : ∀ hostname reference, Mapped environment options entry hostname reference →
    ¬ Storable environment hostname reference db → LimitReached environment application db

variable {environment application options now}
variable {fresh : Fresh} {entry : LegacyDomain} {db after : Database} {outcome : Outcome}

theorem Mapped.unique {hostname hostname' reference reference' : String}
    (mapped : Mapped environment options entry hostname reference)
    (other : Mapped environment options entry hostname' reference') :
    hostname' = hostname ∧ reference' = reference := by
  have same := mapped.accepted.symm.trans other.accepted
  cases same
  have same := mapped.reference.symm.trans other.reference
  cases same
  exact ⟨rfl, rfl⟩

theorem liveByHostname_hostname {hostname : String} {live : Domain}
    (found : db.liveByHostname hostname = some live) : live.hostname = hostname := by
  have both := List.find?_some found
  rw [Bool.and_eq_true, beq_iff_eq] at both
  exact both.2

theorem Settled.names
    (settled : Settled environment application options now fresh entry db outcome after) :
    Names environment options entry outcome := by
  cases settled with
  | refused invalid => exact .inl ⟨_, invalid, rfl, rfl⟩
  | unmapped accepted => exact .inr ⟨accepted, by simp⟩
  | limited mapped => exact .inr ⟨mapped.accepted, by simp⟩
  | existing mapped _ _ found =>
      rw [← liveByHostname_hostname found] at mapped
      exact ⟨_, mapped⟩
  | taken mapped => exact .inr ⟨mapped.accepted, by simp⟩
  | imported mapped => exact ⟨_, mapped⟩

/-- Only a limit keeps a hostname that the application has from being `existing`. -/
theorem Settled.own
    (settled : Settled environment application options now fresh entry db outcome after)
    {live : Domain} (own : OwnLive environment application options entry db live) :
    outcome = .existing live ∨ LimitReached environment application db := by
  obtain ⟨hostname, reference, mapped, found, mine⟩ := own
  cases settled with
  | refused invalid =>
      rw [mapped.accepted] at invalid
      cases invalid
  | unmapped accepted missing =>
      have same := mapped.accepted.symm.trans accepted
      cases same
      have same := mapped.reference.symm.trans missing
      cases same
  | limited _ _ _ reached => exact .inr reached
  | existing mapped' _ _ found' =>
      rw [(mapped.unique mapped').1, found] at found'
      cases found'
      exact .inl rfl
  | taken mapped' _ _ found' other =>
      rw [(mapped.unique mapped').1, found] at found'
      cases found'
      exact absurd mine other
  | imported mapped' _ _ unclaimed =>
      rw [(mapped.unique mapped').1, found] at unclaimed
      cases unclaimed

/-- An entry that was settled did not end the import. -/
theorem Settled.not_ends
    (settled : Settled environment application options now fresh entry db outcome after)
    {hostname reference : String} (mapped : Mapped environment options entry hostname reference) :
    ¬ Ends environment application hostname reference now db := by
  have admits {hostname' reference' : String}
      (mapped' : Mapped environment options entry hostname' reference')
      (admitted : Admitted environment application reference' now db)
      (storable : Storable environment hostname' reference' db) :
      ¬ Ends environment application hostname reference now db := by
    rw [(mapped.unique mapped').2] at admitted storable
    rw [(mapped.unique mapped').1] at storable
    rintro (invalid | invalid | ⟨-, full | refused⟩)
    · exact invalid admitted.reference
    · exact invalid admitted.limit
    · exact admitted.budget full
    · exact refused storable
  cases settled with
  | refused invalid =>
      rw [mapped.accepted] at invalid
      cases invalid
  | unmapped accepted missing =>
      have same := mapped.accepted.symm.trans accepted
      cases same
      have same := mapped.reference.symm.trans missing
      cases same
  | limited mapped' valid configured reached =>
      rw [(mapped.unique mapped').2] at valid
      rintro (invalid | invalid | ⟨below, -⟩)
      · exact invalid valid
      · exact invalid configured
      · exact below reached
  | existing mapped' admitted storable => exact admits mapped' admitted storable
  | taken mapped' admitted storable => exact admits mapped' admitted storable
  | imported mapped' admitted storable => exact admits mapped' admitted storable

section Step

variable (lawful : environment.tables.Lawful) (keyed : db.Keyed)
variable (active : application.status = .active)
variable (stored : (db.application? application.id).isSome = true) (unused : Unused db fresh)
include lawful keyed active stored unused

/-- An entry is counted where the condition holds. -/
theorem Good.counted (good : Good environment application options now entry db)
    (report : ImportReport) :
    ∃ outcome next,
      (importEntry environment application options report entry fresh now).run db =
        (.ok (report.add outcome), next) ∧
      Settled environment application options now fresh entry db outcome next ∧
      Counted environment application options entry db outcome next := by
  have settles : (importEntry environment application options report entry fresh now).Spec db _ _ :=
    importEntry_exact application now lawful keyed active stored unused report
  have returns : (importEntry environment application options report entry fresh now).Returns db
      fun result next => ∃ outcome, result = report.add outcome ∧
        Settled environment application options now fresh entry db outcome next := by
    refine settles.mono (fun _ _ post => post) ?_
    rintro _ _ ⟨hostname, reference, mapped, invalid | invalid | ⟨below, full | refused⟩⟩
    · exact invalid (good.reference hostname reference mapped)
    · exact invalid (good.limit hostname reference mapped)
    · exact below (good.budget hostname reference mapped full)
    · exact below (good.storable hostname reference mapped refused)
  obtain ⟨result, next, ran⟩ := returns.returns
  obtain ⟨outcome, rfl, settled⟩ := settles.result ran
  refine ⟨outcome, next, ran, settled, settled.names, fun live own => ?_, settled.kept⟩
  exact (settled.own own).resolve_right (good.below live own)

/-- The condition holds where an entry is counted. -/
theorem Counted.good {report : ImportReport} {next : Database}
    (ran : (importEntry environment application options report entry fresh now).run db =
      (.ok (report.add outcome), next))
    (counted : Counted environment application options entry db outcome next) :
    Settled environment application options now fresh entry db outcome next ∧
      Good environment application options now entry db := by
  have settles : (importEntry environment application options report entry fresh now).Spec db _ _ :=
    importEntry_exact application now lawful keyed active stored unused report
  obtain ⟨other, same, settled⟩ := settles.result ran
  rw [← ImportReport.add_injective same] at settled
  have lasts {hostname reference : String}
      (mapped : Mapped environment options entry hostname reference) := settled.not_ends mapped
  unfold Ends at lasts
  refine ⟨settled, fun _ _ mapped => ?_, fun _ _ mapped => ?_, fun live own reached => ?_,
    fun _ _ mapped full => ?_, fun _ _ mapped refused => ?_⟩
  · exact not_not.mp fun invalid => lasts mapped (.inl invalid)
  · exact not_not.mp fun invalid => lasts mapped (.inr (.inl invalid))
  · rw [counted.own live own] at settled
    cases settled with
    | existing _ admitted => exact admitted.below reached
  · exact not_not.mp fun below => lasts mapped (.inr (.inr ⟨below, .inl full⟩))
  · exact not_not.mp fun below => lasts mapped (.inr (.inr ⟨below, .inr refused⟩))

end Step

/-! ### From the first entry to the last -/

variable (environment application options now) (draw : Nat → Fresh)

/-- Each entry in its turn is counted once. -/
inductive Counts : Nat → List LegacyDomain → ImportReport → Database → List Outcome → Database →
    Prop where
  | nil {index : Nat} {report : ImportReport} {db : Database} : Counts index [] report db [] db
  | cons {index : Nat} {entry : LegacyDomain} {entries : List LegacyDomain}
      {report : ImportReport} {db next after : Database} {outcome : Outcome}
      {outcomes : List Outcome}
      (ran : (importEntry environment application options report entry (draw index) now).run db =
        (.ok (report.add outcome), next))
      (counted : Counted environment application options entry db outcome next)
      (rest : Counts (index + 1) entries (report.add outcome) next outcomes after) :
      Counts index (entry :: entries) report db (outcome :: outcomes) after

/-- The condition holds of each entry in the rows that the entries before it leave. -/
def Clear : Nat → List LegacyDomain → ImportReport → Database → Prop
  | _, [], _, _ => True
  | index, entry :: entries, report, db =>
      Good environment application options now entry db ∧
        ∀ reached next,
          (importEntry environment application options report entry (draw index) now).run db =
            (.ok reached, next) → Clear (index + 1) entries reached next

/-- The identifiers from `index` on are unused, and no two draws share one. -/
structure Fresh.Draws (index : Nat) (db : Database) : Prop where
  unused : ∀ number, index ≤ number → Unused db (draw number)
  apart : ∀ first second, first ≠ second → (draw first).Apart (draw second)

variable {environment application options now draw}

theorem Fresh.Draws.next {index : Nat} {next : Database} (draws : Draws draw index db)
    (settled : Settled environment application options now (draw index) entry db outcome next) :
    Draws draw (index + 1) next :=
  ⟨fun number later => settled.unused (draws.unused number (Nat.le_of_succ_le later))
    (draws.apart index number (Nat.ne_of_lt later)), draws.apart⟩

variable {index : Nat} {entries : List LegacyDomain} {report : ImportReport}

/-- Every entry is counted exactly when the condition holds of every entry. -/
theorem counts_iff_clear (lawful : environment.tables.Lawful) (keyed : db.Keyed)
    (active : application.status = .active)
    (stored : (db.application? application.id).isSome = true)
    (draws : Fresh.Draws draw index db) :
    (∃ outcomes after, Counts environment application options now draw index entries report db
      outcomes after) ↔ Clear environment application options now draw index entries report db := by
  induction entries generalizing index report db with
  | nil => exact ⟨fun _ => trivial, fun _ => ⟨[], db, .nil⟩⟩
  | cons entry entries ih =>
      have unused := draws.unused index (le_refl index)
      constructor
      · rintro ⟨_, after, _ | ⟨ran, counted, rest⟩⟩
        obtain ⟨settled, good⟩ := counted.good lawful keyed active stored unused ran
        refine ⟨good, fun reached next again => ?_⟩
        cases ran.symm.trans again
        exact (ih (settled.keyed keyed) (settled.stored stored) (draws.next settled)).mp
          ⟨_, after, rest⟩
      · rintro ⟨good, clear⟩
        obtain ⟨outcome, next, ran, settled, counted⟩ :=
          good.counted lawful keyed active stored unused report
        obtain ⟨outcomes, after, rest⟩ := (ih (settled.keyed keyed) (settled.stored stored)
          (draws.next settled)).mpr (clear _ next ran)
        exact ⟨outcome :: outcomes, after, .cons ran counted rest⟩

theorem Counts.run {outcomes : List Outcome}
    (counts : Counts environment application options now draw index entries report db outcomes
      after) :
    (Program.foldEach (entries.zipIdx index) report fun report entry =>
      importEntry environment application options report entry.1 (draw entry.2) now).run db =
      (.ok (outcomes.foldl ImportReport.add report), after) := by
  induction counts with
  | nil => rfl
  | cons ran _ _ ih =>
      rw [List.zipIdx_cons, Program.foldEach, Program.run_bind, ran]
      exact ih

theorem Counts.length {outcomes : List Outcome}
    (counts : Counts environment application options now draw index entries report db outcomes
      after) : outcomes.length = entries.length := by
  induction counts with
  | nil => rfl
  | cons _ _ _ ih => rw [List.length_cons, List.length_cons, ih]

/-- An imported domain belongs to one of the entries. -/
theorem Counts.mapped {outcomes : List Outcome}
    (counts : Counts environment application options now draw index entries report db outcomes
      after) {domain : Domain} (member : .imported domain ∈ outcomes) :
    ∃ entry ∈ entries, ∃ reference,
      Mapped environment options entry domain.hostname reference := by
  induction counts with
  | nil => cases member
  | cons _ counted _ ih =>
      rcases List.mem_cons.mp member with rfl | later
      · exact ⟨_, List.mem_cons_self, counted.names⟩
      · obtain ⟨entry, inside, mapped⟩ := ih later
        exact ⟨entry, List.mem_cons_of_mem _ inside, mapped⟩

/-- Rows that are only added to keep every live hostname. -/
theorem OwnLive.kept {live : Domain} (own : OwnLive environment application options entry db live)
    {rows : List Domain} (kept : after.domains = db.domains ++ rows) :
    OwnLive environment application options entry after live := by
  obtain ⟨hostname, reference, mapped, found, mine⟩ := own
  refine ⟨hostname, reference, mapped, ?_, mine⟩
  unfold Database.liveByHostname at found ⊢
  rw [kept, List.find?_append, found]
  rfl

theorem Counts.kept {outcomes : List Outcome}
    (counts : Counts environment application options now draw index entries report db outcomes
      after) {row : Domain} (member : row ∈ db.domains) : row ∈ after.domains := by
  induction counts with
  | nil => exact member
  | cons _ counted _ ih =>
      obtain ⟨rows, kept⟩ := counted.kept
      refine ih ?_
      rw [kept]
      exact List.mem_append_left rows member

/-- A hostname that the application has before the import is counted as existing. -/
theorem Counts.existing {outcomes : List Outcome}
    (counts : Counts environment application options now draw index entries report db outcomes
      after) (inside : entry ∈ entries) {live : Domain}
    (own : OwnLive environment application options entry db live) : .existing live ∈ outcomes := by
  induction counts with
  | nil => cases inside
  | cons _ counted _ ih =>
      rcases List.mem_cons.mp inside with rfl | later
      · rw [counted.own live own]
        exact List.mem_cons_self
      · obtain ⟨rows, kept⟩ := counted.kept
        exact List.mem_cons_of_mem _ (ih later (own.kept kept))

end Runs

/-! ## An import and the next one -/

section Reruns

/-- One run of an import: the identifiers it draws, its time and the rows it starts from. -/
structure Occasion where
  draw : Nat → Fresh
  now : Time
  db : Database

variable (environment : Environment) (application : Application) (options : ImportOptions)
variable (entries : List LegacyDomain)

/-- The report of the run and the rows it leaves. -/
def Occasion.result (occasion : Occasion) : Except ServiceError ImportReport × Database :=
  (importLegacyDomains environment application options entries occasion.draw occasion.now).run
    occasion.db

/-- The rows have distinct identifiers and the application, and those that are drawn are new. -/
structure Occasion.Ready (occasion : Occasion) : Prop where
  keyed : occasion.db.Keyed
  stored : (occasion.db.application? application.id).isSome = true
  draws : Fresh.Draws occasion.draw 0 occasion.db

/-- The run returns a report with one outcome for each entry. -/
def Occasion.Classified (occasion : Occasion) : Prop :=
  ∃ outcomes after, outcomes.length = entries.length ∧
    occasion.result environment application options entries =
      (.ok (outcomes.foldl ImportReport.add {}), after) ∧
    Counts environment application options occasion.now occasion.draw 0 entries {} occasion.db
      outcomes after

/-- The condition holds of each entry when it is reached. -/
def Occasion.Clear (occasion : Occasion) : Prop :=
  LegacyImport.Clear environment application options occasion.now occasion.draw 0 entries {}
    occasion.db

/-- What the first run imported and is still live, the second reports as existing and keeps. -/
def Reruns (first second : Occasion) : Prop :=
  ∀ report after report' after',
    first.result environment application options entries = (.ok report, after) →
    second.result environment application options entries = (.ok report', after') →
    ∀ domain ∈ report.imported, ∀ live,
      second.db.liveByHostname domain.hostname = some live →
      live.applicationId = application.id → live ∈ report'.existing ∧ live ∈ after'.domains

variable {environment application options entries}

theorem Occasion.classified_iff {occasion : Occasion} (lawful : environment.tables.Lawful)
    (active : application.status = .active) (ready : occasion.Ready application) :
    occasion.Classified environment application options entries ↔
      occasion.Clear environment application options entries := by
  refine Iff.trans ⟨?_, ?_⟩
    (counts_iff_clear lawful ready.keyed active ready.stored ready.draws)
  · rintro ⟨outcomes, after, -, -, counts⟩
    exact ⟨outcomes, after, counts⟩
  · rintro ⟨outcomes, after, counts⟩
    exact ⟨outcomes, after, counts.length, counts.run, counts⟩

theorem Occasion.Classified.reruns {first second : Occasion}
    (before : first.Classified environment application options entries)
    (again : second.Classified environment application options entries) :
    Reruns environment application options entries first second := by
  obtain ⟨outcomes, after, -, ran, counts⟩ := before
  obtain ⟨outcomes', after', -, ran', counts'⟩ := again
  intro report last report' last' first' second' domain imported live found own
  cases ran.symm.trans first'
  cases ran'.symm.trans second'
  have outcome := (ImportReport.mem_imported.mp imported).resolve_left List.not_mem_nil
  obtain ⟨entry, inside, reference, mapped⟩ := counts.mapped outcome
  have existing := counts'.existing inside ⟨_, reference, mapped, found, own⟩
  exact ⟨ImportReport.mem_existing.mpr (.inr existing),
    counts'.kept (List.mem_of_find?_eq_some found)⟩

/-- An import counts every entry once, and one that is run again finds what it brought in,
exactly when no entry meets an invalid reference or limit, a full window, a row that the
database cannot hold, or a reached limit although the application already has its hostname. -/
theorem import_rerunnable_iff (lawful : environment.tables.Lawful)
    (active : application.status = .active) {first second : Occasion}
    (ready : first.Ready application) (ready' : second.Ready application) :
    (first.Classified environment application options entries ∧
      second.Classified environment application options entries ∧
      Reruns environment application options entries first second) ↔
    first.Clear environment application options entries ∧
      second.Clear environment application options entries := by
  rw [← Occasion.classified_iff lawful active ready, ← Occasion.classified_iff lawful active ready']
  constructor
  · rintro ⟨before, again, -⟩
    exact ⟨before, again⟩
  · rintro ⟨before, again⟩
    exact ⟨before, again, before.reruns again⟩

end Reruns

/-! ## A hostname imported twice -/

section Samples

def sampleDraw (start number : Nat) : Fresh where
  domainId := start + number
  claimId := start + number
  token := String.ofList (List.replicate (start + number) 't')

def sampleEntries : List LegacyDomain := [{ hostname := "forms.example.com", upstream := none }]

def sampleOptions : ImportOptions := { hostnameAsReference := true }

/-- The first import of an application. -/
def sampleImport (application : Application) : Occasion where
  draw := sampleDraw 1
  now := 0
  db := { applications := [application] }

/-- The same import once more, on what the first one leaves. -/
def sampleReimport (application : Application) : Occasion where
  draw := sampleDraw 2
  now := 60
  db := ((sampleImport application).result sampleEnvironment application sampleOptions
    sampleEntries).2

/-- An application that may have one domain. -/
def limitedApplication : Application := { sampleApplication with maxDomains := some 1 }

theorem sampleDraw_apart (start : Nat) {first second : Nat} (different : first ≠ second) :
    (sampleDraw start first).Apart (sampleDraw start second) := by
  have ids : start + first ≠ start + second := fun same => different (Nat.add_left_cancel same)
  refine ⟨ids, ids, fun same => ids ?_⟩
  have lengths := congrArg String.length same
  simpa [sampleDraw] using lengths

theorem sampleImport_ready (application : Application) :
    (sampleImport application).Ready application where
  keyed := List.nodup_nil
  stored := by simp [sampleImport, Database.application?]
  draws := ⟨fun _ _ => ⟨rfl, fun _ member => absurd member List.not_mem_nil⟩,
    fun _ _ => sampleDraw_apart 1⟩

/-- What the first import leaves: one row, under the first draw. -/
structure Imported (application : Application) (row : Domain) : Prop where
  rows : (sampleReimport application).db.domains = [row]
  stored : ((sampleReimport application).db.application? application.id).isSome = true
  drawn : Drawn row (sampleDraw 1 0)
  live : row.isLive = true
  hostname : row.hostname = "forms.example.com"
  own : row.applicationId = application.id

theorem Imported.ready {application : Application} {row : Domain}
    (imported : Imported application row) : (sampleReimport application).Ready application where
  keyed := by
    rw [Database.Keyed, imported.rows]
    exact List.nodup_singleton _
  stored := imported.stored
  draws := by
    refine ⟨fun number _ => ?_, fun _ _ => sampleDraw_apart 2⟩
    -- The second draw starts where the first one stops.
    have apart : (sampleDraw 1 0).Apart (sampleDraw 2 number) := by
      have shifted : sampleDraw 2 number = sampleDraw 1 (number + 1) := by
        have same : 2 + number = 1 + (number + 1) := by omega
        simp only [sampleDraw, same]
      rw [shifted]
      exact sampleDraw_apart 1 (Nat.succ_ne_zero number).symm
    change Unused (sampleReimport application).db (sampleDraw 2 number)
    constructor
    · rw [Database.domain?, imported.rows]
      simp [imported.drawn.id, apart.domain]
    · rw [imported.rows]
      intro stored member claim issued
      rw [List.mem_singleton.mp member] at issued
      obtain ⟨id, token⟩ := imported.drawn.claims claim issued
      rw [id, token]
      exact apart.claim

theorem Imported.found {application : Application} {row : Domain}
    (imported : Imported application row) :
    (sampleReimport application).db.liveByHostname "forms.example.com" = some row := by
  rw [Database.liveByHostname, imported.rows]
  simp [imported.live, imported.hostname]

/-- The only row of the second import, where one is left. -/
theorem imported_of {application : Application}
    (one : (sampleReimport application).db.domains.length = 1)
    (stored : ((sampleReimport application).db.application? application.id).isSome = true)
    (each : ∀ row ∈ (sampleReimport application).db.domains, row.id = 1 ∧
      (∀ claim ∈ row.claims, claim.id = 1 ∧ claim.token = "t") ∧ row.isLive = true ∧
      row.hostname = "forms.example.com" ∧ row.applicationId = application.id) :
    ∃ row, Imported application row := by
  obtain ⟨row, rows⟩ := List.length_eq_one_iff.mp one
  obtain ⟨id, claims, live, hostname, own⟩ := each row (by rw [rows]; exact List.mem_singleton_self _)
  exact ⟨row, rows, stored, ⟨id, claims⟩, live, hostname, own⟩

theorem sample_imported : ∃ row, Imported sampleApplication row :=
  imported_of (by decide +kernel) (by decide +kernel) (by decide +kernel)

theorem limited_imported : ∃ row, Imported limitedApplication row :=
  imported_of (by decide +kernel) (by decide +kernel) (by decide +kernel)

theorem sample_mapped : Mapped sampleEnvironment sampleOptions
    { hostname := "forms.example.com", upstream := none } "forms.example.com"
    "forms.example.com" :=
  ⟨by decide +kernel, by decide +kernel⟩

theorem sample_good {db : Database} {now : Time} (room : ¬ WindowFull sampleApplication now db) :
    Good sampleEnvironment sampleApplication sampleOptions now
      { hostname := "forms.example.com", upstream := none } db where
  reference := by
    intro hostname reference mapped
    rw [(sample_mapped.unique mapped).2]
    exact ⟨by decide +kernel, by decide +kernel⟩
  limit := nofun
  below := by
    rintro _ _ (⟨limit, configured, -⟩ | ⟨limit, configured, -⟩)
    · cases configured
    · cases configured
  budget := fun _ _ _ full => absurd full room
  storable := by
    intro hostname reference mapped refused
    rw [(sample_mapped.unique mapped).1, (sample_mapped.unique mapped).2] at refused
    exact absurd ⟨by decide +kernel, fun _ => by decide +kernel⟩ refused

theorem sample_rerunnable :
    (∃ row, (sampleReimport sampleApplication).db.liveByHostname "forms.example.com" = some row) ∧
    (sampleImport sampleApplication).Classified sampleEnvironment sampleApplication sampleOptions
      sampleEntries ∧
    (sampleReimport sampleApplication).Classified sampleEnvironment sampleApplication sampleOptions
      sampleEntries ∧
    Reruns sampleEnvironment sampleApplication sampleOptions sampleEntries
      (sampleImport sampleApplication) (sampleReimport sampleApplication) := by
  obtain ⟨row, imported⟩ := sample_imported
  refine ⟨⟨row, imported.found⟩, ?_⟩
  refine (import_rerunnable_iff sampleEnvironment_lawful rfl (sampleImport_ready sampleApplication)
    imported.ready).mpr ⟨⟨sample_good ?_, fun _ _ _ => trivial⟩, sample_good ?_,
      fun _ _ _ => trivial⟩
  · unfold WindowFull
    decide +kernel
  · unfold WindowFull
    decide +kernel

/-- With room for one domain the second import does not know the first one's hostname. -/
theorem import_not_rerunnable :
    ((sampleReimport limitedApplication).result sampleEnvironment limitedApplication sampleOptions
      sampleEntries).1.toOption.map ImportReport.skipped =
        some [("forms.example.com", "domain_limit_reached")] ∧
    ¬ ((sampleImport limitedApplication).Classified sampleEnvironment limitedApplication
        sampleOptions sampleEntries ∧
      (sampleReimport limitedApplication).Classified sampleEnvironment limitedApplication
        sampleOptions sampleEntries ∧
      Reruns sampleEnvironment limitedApplication sampleOptions sampleEntries
        (sampleImport limitedApplication) (sampleReimport limitedApplication)) := by
  refine ⟨by decide +kernel, ?_⟩
  rintro ⟨-, classified, -⟩
  obtain ⟨row, imported⟩ := limited_imported
  have clear := (Occasion.classified_iff sampleEnvironment_lawful rfl imported.ready).mp classified
  refine clear.1.below row ⟨_, _, sample_mapped, imported.found, imported.own⟩ (.inl ⟨1, rfl, ?_⟩)
  decide +kernel

end Samples

end CustomDomain.LegacyImport
