import CustomDomain.EdgeLocks
import CustomDomain.RegistrationStatements
import CustomDomain.RowChanges

/-!
# Domain limits under concurrency

Registrations and deletions of any applications run together.  A registration
holds its application's row from before the count to its commit, and the
deployment's lock row as well when `MAX_DOMAINS` is set, so no other
registration it would have to count can commit in between.  A deletion takes
neither lock; it only ever lowers the counts.
-/

namespace CustomDomain

open Transaction Relation

/-! ## What registrations rely on -/

/-- Under an application's row lock its live domains do not grow, and under the
deployment's lock all of them do not, as far as registrations take it.  No key
appears whose row is locked. -/
structure WithinLimits (environment : Environment) (locks : List Row) (before after : Database) :
    Prop where
  edgeLocks : KeepsLocks before after
  applications : ∀ id, (after.application? id).isSome = (before.application? id).isSome
  keys : ∀ id, Row.domain id ∈ locks → id ∈ after.domains.map (·.id) →
    id ∈ before.domains.map (·.id)
  application : ∀ id, Row.application id ∈ locks →
    after.liveCount (some id) ≤ before.liveCount (some id)
  deployment : environment.maxDomains.isSome = true → Row.edgeLock domainLimitLock ∈ locks →
    after.liveCount none ≤ before.liveCount none

def limitRely (environment : Environment) : Rely store where
  Allows := WithinLimits environment
  refl _ _ := ⟨fun _ present => present, fun _ => rfl, fun _ _ present => present,
    fun _ _ => le_rfl, fun _ _ => le_rfl⟩
  trans first second :=
    ⟨fun name present => second.edgeLocks name (first.edgeLocks name present),
      fun id => (second.applications id).trans (first.applications id),
      fun id held present => first.keys id held (second.keys id held present),
      fun id held => (second.application id held).trans (first.application id held),
      fun set held => (second.deployment set held).trans (first.deployment set held)⟩
  mono within :=
    ⟨within.edgeLocks, within.applications,
      fun id held => within.keys id (List.mem_append_left _ held),
      fun id held => within.application id (List.mem_append_left _ held),
      fun set held => within.deployment set (List.mem_append_left _ held)⟩

/-- A registration before its insert: it has only touched lock rows, and holds
its application's row, if there is one. -/
structure Claiming (application : Application) (moment : Moment store) : Prop where
  touches : TouchesLocks moment.pending
  held : (moment.committed.application? application.id).isSome = true →
    Row.application application.id ∈ moment.locks

theorem TouchesLocks.liveCount {change : Database → Database} (touches : TouchesLocks change)
    (db : Database) (scope : Option Uuid) : (change db).liveCount scope = db.liveCount scope := by
  obtain ⟨locks, changed⟩ := touches.rows db
  rw [changed]
  rfl

theorem TouchesLocks.application? {change : Database → Database} (touches : TouchesLocks change)
    (db : Database) (id : Uuid) : (change db).application? id = db.application? id := by
  obtain ⟨locks, changed⟩ := touches.rows db
  rw [changed]
  rfl

theorem Claiming.later {environment : Environment} {application : Application}
    {moment : Moment store} {db : Database} (claiming : Claiming application moment)
    (within : WithinLimits environment moment.locks moment.committed db) :
    Claiming application (moment.later db) where
  touches := claiming.touches
  held stored := claiming.held (by rwa [← within.applications application.id])

theorem Claiming.survives (environment : Environment) (application : Application) :
    SurvivesLocking (limitRely environment) (Claiming application) where
  grows _ _ _ within := within.edgeLocks
  pending _ claiming := claiming.touches.mono
  later _ _ claiming within := claiming.later within
  written _ _ _ claiming touches :=
    ⟨claiming.touches.comp touches, fun stored => List.mem_append_left _ (claiming.held stored)⟩

/-- With the deployment's lock as well, if there is a deployment limit. -/
structure Serialized (environment : Environment) (application : Application)
    (moment : Moment store) : Prop extends Claiming application moment where
  locked : environment.maxDomains.isSome = true → Row.edgeLock domainLimitLock ∈ moment.locks

/-- With room under the application's limit. -/
structure Roomy (environment : Environment) (application : Application)
    (moment : Moment store) : Prop extends Serialized environment application moment where
  application : Row.application application.id ∈ moment.locks →
    ∀ limit, application.maxDomains = some limit →
      moment.committed.liveCount (some application.id) < limit

/-- With room under both limits. -/
structure Cleared (environment : Environment) (application : Application)
    (moment : Moment store) : Prop extends Roomy environment application moment where
  deployment : ∀ limit, environment.maxDomains = some limit →
    moment.committed.liveCount none < limit

section Later

variable {environment : Environment} {application : Application} {moment : Moment store}
  {db : Database}

theorem Serialized.later (serialized : Serialized environment application moment)
    (within : WithinLimits environment moment.locks moment.committed db) :
    Serialized environment application (moment.later db) where
  toClaiming := serialized.toClaiming.later within
  locked := serialized.locked

theorem Roomy.later (roomy : Roomy environment application moment)
    (within : WithinLimits environment moment.locks moment.committed db) :
    Roomy environment application (moment.later db) where
  toSerialized := roomy.toSerialized.later within
  application held limit set :=
    lt_of_le_of_lt (Int.ofNat_le.mpr (within.application _ held))
      (roomy.application held limit set)

theorem Cleared.later (cleared : Cleared environment application moment)
    (within : WithinLimits environment moment.locks moment.committed db) :
    Cleared environment application (moment.later db) where
  toRoomy := cleared.toRoomy.later within
  deployment limit set :=
    have bounded : environment.maxDomains.isSome = true := by rw [set]; rfl
    lt_of_le_of_lt (Int.ofNat_le.mpr (within.deployment bounded (cleared.locked bounded)))
      (cleared.deployment limit set)

end Later

/-- A registration after its insert: its pending changes add one live domain of
its application, and there is room for it. -/
structure Claimed (environment : Environment) (application : Application)
    (moment : Moment store) : Prop where
  edgeLocks : ∀ db, KeepsLocks db (moment.pending db)
  applications : ∀ db, (moment.pending db).applications = db.applications
  counts : ∀ db scope, (moment.pending db).liveCount scope = db.liveCount scope +
    if scope.all (decide <| application.id = ·) = true then 1 else 0
  key : ∃ id, Row.domain id ∈ moment.locks ∧ id ∉ moment.committed.domains.map (·.id) ∧
    ∀ db, (moment.pending db).domains.map (·.id) = db.domains.map (·.id) ++ [id]
  held : Row.application application.id ∈ moment.locks
  locked : environment.maxDomains.isSome = true → Row.edgeLock domainLimitLock ∈ moment.locks
  application : ∀ limit, application.maxDomains = some limit →
    moment.committed.liveCount (some application.id) < limit
  deployment : ∀ limit, environment.maxDomains = some limit →
    moment.committed.liveCount none < limit

/-- A deletion lowers counts and does nothing else registrations could
notice. -/
structure Removing (kept : Application → Application → Prop) (moment : Moment store) : Prop where
  edgeLocks : ∀ db, KeepsLocks db (moment.pending db)
  applications : ∀ db, ∃ update : Application → Application,
    (∀ row, kept row (update row)) ∧
      (moment.pending db).applications = db.applications.map update
  counts : ∀ db scope, (moment.pending db).liveCount scope ≤ db.liveCount scope
  keys : ∀ db, (moment.pending db).domains.map (·.id) = db.domains.map (·.id)

theorem KeepsLocks.of_edgeLocks {before after : Database}
    (same : after.edgeLocks = before.edgeLocks) : KeepsLocks before after := by
  intro name present
  unfold hasEdgeLock at *
  rwa [same]

theorem Claimed.later {environment : Environment} {application : Application}
    {moment : Moment store} {db : Database} (claimed : Claimed environment application moment)
    (within : WithinLimits environment moment.locks moment.committed db) :
    Claimed environment application (moment.later db) :=
  { claimed with
    application := fun limit set =>
      lt_of_le_of_lt (Int.ofNat_le.mpr (within.application _ claimed.held))
        (claimed.application limit set)
    key := by
      obtain ⟨id, held, unused, adds⟩ := claimed.key
      exact ⟨id, held, fun present => unused (within.keys id held present), adds⟩
    deployment := fun limit set =>
      have bounded : environment.maxDomains.isSome = true := by rw [set]; rfl
      lt_of_le_of_lt (Int.ofNat_le.mpr (within.deployment bounded (claimed.locked bounded)))
        (claimed.deployment limit set) }

theorem Claimed.written {environment : Environment} {application : Application}
    {moment : Moment store} (claimed : Claimed environment application moment)
    {rows : Database → List Row} {change : Database → Database → Database}
    (rowWise : RowWise Eq Domain.Counts (fun _ => True) (change moment.view)) :
    Claimed environment application (moment.written rows change) where
  edgeLocks db name present :=
    KeepsLocks.of_edgeLocks (rowWise.edgeLocks _) name (claimed.edgeLocks db name present)
  applications db := (rowWise.applications_eq _).trans (claimed.applications db)
  counts db scope := (rowWise.liveCount_eq _ scope).trans (claimed.counts db scope)
  key := by
    obtain ⟨id, held, unused, adds⟩ := claimed.key
    exact ⟨id, List.mem_append_left _ held, unused,
      fun db => (rowWise.keys_eq (fun counts => counts.id) _).trans (adds db)⟩
  held := List.mem_append_left _ claimed.held
  locked bounded := List.mem_append_left _ (claimed.locked bounded)
  application := claimed.application
  deployment := claimed.deployment

theorem Removing.written {kept : Application → Application → Prop}
    (trans : ∀ first second third, kept first second → kept second third → kept first third)
    {moment : Moment store} (removing : Removing kept moment)
    {rows : Database → List Row} {change : Database → Database → Database}
    (rowWise : RowWise kept Domain.Thins (fun _ => True) (change moment.view)) :
    Removing kept (moment.written rows change) where
  edgeLocks db name present :=
    KeepsLocks.of_edgeLocks (rowWise.edgeLocks _) name (removing.edgeLocks db name present)
  applications db := by
    obtain ⟨first, keeps, applications⟩ := removing.applications db
    obtain ⟨second, keeps', applications'⟩ := rowWise.applications (moment.pending db)
    refine ⟨second ∘ first, fun row => trans _ _ _ (keeps row) (keeps' (first row)), ?_⟩
    rw [← List.map_map, ← applications]
    exact applications'
  counts db scope := (rowWise.liveCount_le _ scope).trans (removing.counts db scope)
  keys db := (rowWise.keys_eq (fun thins => thins.id) _).trans (removing.keys db)

/-- A transaction that has written nothing yet. -/
theorem Removing.start {kept : Application → Application → Prop} (keeps : ∀ row, kept row row)
    (db : Database) : Removing kept ⟨[], id, db⟩ :=
  ⟨fun _ _ present => present, fun _ => ⟨fun row => row, keeps, (List.map_id' _).symm⟩,
    fun _ _ => le_rfl, fun _ => rfl⟩

/-- A body of such changes, among registrations. -/
theorem Removing.safe {kept : Application → Application → Prop} {α : Type} {program : Sql α}
    (environment : Environment) (keeps : ∀ row, kept row row)
    (trans : ∀ first second third, kept first second → kept second third → kept first third)
    (within : program.Within (RowWise kept Domain.Thins fun _ => True) NotLimitReached) (db : Database) :
    Safe (limitRely environment) {} (fun _ => Removing kept) program ⟨[], id, db⟩ :=
  within.safe (Removing kept) (fun _ _ holds _ => { holds with })
    (fun _ _ _ holds rowWise => holds.written trans rowWise)
    (fun _ _ => trivial) (fun _ _ _ _ => trivial) (fun _ _ holds => holds) (.start keeps db)

/-! ## Each transaction keeps to it -/

theorem enforceLimit_safe {rely : Rely store} {outline : Outline store} {scope : LimitScope}
    {application : Option Uuid} {limit : Option Int} (before after : Moment store → Prop)
    (stable : ∀ moment db, before moment → rely.Allows moment.locks moment.committed db →
      before (moment.later db))
    (stable' : ∀ moment db, after moment → rely.Allows moment.locks moment.committed db →
      after (moment.later db))
    (select : ∀ moment, before moment → outline.select moment)
    (met : ∀ moment, before moment →
      (∀ value, limit = some value → moment.view.liveCount application < value) → after moment)
    (refused : ∀ moment value, before moment → limit = some value →
      ¬ (moment.view.liveCount application : Int) < value →
        ∀ later, outline.raise (.domainLimitReached scope value
          (moment.view.liveCount application)) later)
    {moment : Moment store} (start : before moment) :
    Safe rely outline (fun _ => after) (enforceLimit scope application limit) moment := by
  cases limit with
  | none =>
      exact Safe.of_pure fun db allows => met _ (stable moment db start allows) (by simp)
  | some value =>
      refine Safe.of_select fun db allows => ?_
      have now := stable moment db start allows
      refine ⟨select _ now, ?_⟩
      change Safe rely outline _
        (Program.require ((((moment.later db).view.liveCount application : Nat) : Int) < value)
          (.domainLimitReached scope value ((moment.later db).view.liveCount application)))
        (moment.later db)
      unfold Program.require
      split
      next fits =>
        have reached : after (moment.later db) := by
          refine met _ now ?_
          rintro _ ⟨⟩
          exact fits
        exact Safe.of_pure fun db' allows' => stable' _ db' reached allows'
      next full => exact Safe.of_raise fun db' _ => refused _ value now rfl full _

section Claim

variable (environment : Environment) (application : Application)

theorem limits_safe {moment : Moment store}
    (serialized : Serialized environment application moment) :
    Safe (limitRely environment) {} (fun _ => Cleared environment application)
      (do
        enforceLimit .application (some application.id) application.maxDomains
        enforceLimit .deployment none environment.maxDomains : Sql Unit) moment := by
  have count : ∀ (moment : Moment store) scope, Claiming application moment →
      moment.view.liveCount scope = moment.committed.liveCount scope :=
    fun moment scope claiming => claiming.touches.liveCount moment.committed scope
  refine Safe.bind (enforceLimit_safe (Serialized environment application)
    (Roomy environment application) (fun _ _ holds within => holds.later within)
    (fun _ _ holds within => holds.later within) (fun _ _ => trivial) ?_
    (fun _ _ _ _ _ _ => trivial) serialized) fun _ moment roomy =>
      enforceLimit_safe (Roomy environment application)
        (Cleared environment application) (fun _ _ holds within => holds.later within)
        (fun _ _ holds within => holds.later within) (fun _ _ => trivial) ?_
        (fun _ _ _ _ _ _ => trivial) roomy
  · intro moment holds fits
    refine ⟨holds, fun _ limit set => ?_⟩
    rw [← count moment _ holds.toClaiming]
    exact fits limit set
  · intro moment holds fits
    refine ⟨holds, fun limit set => ?_⟩
    rw [← count moment _ holds.toClaiming]
    exact fits limit set

theorem enforce_safe {moment : Moment store} (claiming : Claiming application moment) :
    Safe (limitRely environment) {} (fun _ => Cleared environment application)
      (enforce environment application) moment := by
  cases set : environment.maxDomains with
  | none =>
      have limits := limits_safe environment application ⟨claiming, by simp [set]⟩
      rw [set] at limits
      unfold enforce deploymentLimit
      rw [set]
      exact limits
  | some limit =>
      have limits : ∀ moment, Serialized environment application moment → _ :=
        fun moment => limits_safe environment application
      unfold enforce deploymentLimit
      rw [set] at limits ⊢
      dsimp only
      split
      next => exact Safe.of_raise fun _ _ => trivial
      next =>
        have acquired : Safe (limitRely environment) {} _
            (acquireLock domainLimitLock ("application:" ++ uuidText application.id)) moment :=
          acquireLock_safe (Claiming.survives environment application) _ _ claiming
        refine acquired.bind ?_
        rintro _ moment ⟨claiming, locked⟩
        exact limits moment ⟨claiming, fun _ => locked⟩

theorem lockApplication_safe (db : Database) :
    Safe (limitRely environment) {} (fun _ => Claiming application)
      (lockApplication application.id) ⟨[], id, db⟩ := by
  refine Safe.of_write fun db' within => ?_
  have claiming : Claiming application
      (Moment.written (W := store) ⟨[], id, db'⟩
        (fun view => if (view.application? application.id).isSome then
          [.application application.id] else []) fun _ db => db) := by
    refine ⟨.id, fun stored => ?_⟩
    change Row.application application.id ∈ [] ++
      (if (db'.application? application.id).isSome then [Row.application application.id] else [])
    rw [if_pos (show (db'.application? application.id).isSome = true from stored)]
    exact List.mem_singleton_self _
  exact Safe.of_pure fun _ within => claiming.later within

theorem liveCount_append (db : Database) (domain : Domain) (live : domain.isLive = true)
    (scope : Option Uuid) :
    ({ db with domains := db.domains ++ [domain] } : Database).liveCount scope =
      db.liveCount scope +
        if scope.all (decide <| domain.applicationId = ·) = true then 1 else 0 := by
  unfold Database.liveCount Database.liveDomains
  rw [List.filter_append, List.length_append]
  congr 1
  simp only [List.filter_singleton, live, Bool.true_and]
  cases scope.all fun id => decide (domain.applicationId = id) <;> rfl

/-- An insert without a conflict found the application's row, so it is locked. -/
theorem insertDomain_safe {moment : Moment store} {domain : Domain}
    (cleared : Cleared environment application moment)
    (own : domain.applicationId = application.id) (live : domain.isLive = true) :
    Safe (limitRely environment) {}
      (fun conflict moment => conflict = none → Claimed environment application moment)
      (insertDomain domain) moment := by
  refine Safe.of_write fun db within => Safe.of_pure fun db' within' free => ?_
  have cleared := cleared.later within
  obtain ⟨unused, stored, -⟩ := domainConflict_eq_none free
  have held : Row.application application.id ∈ (moment.later db).locks := by
    refine cleared.held ?_
    rw [← cleared.touches.application?]
    rwa [← own]
  refine Claimed.later ?_ within'
  have inserts : ∀ stored : Database,
      (if (domainConflict (moment.later db).view domain).isSome = true then stored
        else { stored with domains := stored.domains ++ [domain] } : Database) =
      ({ stored with domains := stored.domains ++ [domain] } : Database) := by
    intro stored
    rw [free]
    rfl
  constructor
  case edgeLocks =>
    intro db' name present
    simp only [Moment.written, Function.comp, inserts]
    exact cleared.touches.keeps db' name present
  case applications =>
    intro db'
    simp only [Moment.written, Function.comp, inserts]
    obtain ⟨locks, changed⟩ := cleared.touches.rows db'
    rw [changed]
  case counts =>
    intro db' scope
    simp only [Moment.written, Function.comp, inserts]
    rw [liveCount_append _ domain live, cleared.touches.liveCount, own]
  case key =>
    refine ⟨domain.id, List.mem_append_right _ (by simp [free]), ?_, fun db' => ?_⟩
    · intro present
      have seen : db.domain? domain.id = none := by
        obtain ⟨locks, changed⟩ := cleared.touches.rows db
        have view : (moment.later db).view = { db with edgeLocks := locks } := changed
        rwa [view] at unused
      obtain ⟨row, member, same⟩ := List.mem_map.mp present
      exact absurd (List.find?_eq_none.mp seen row member) (by simp [same])
    · simp only [Moment.written, Function.comp, inserts]
      obtain ⟨locks, changed⟩ := cleared.touches.rows db'
      rw [changed, List.map_append]
      rfl
  case held => exact List.mem_append_left _ held
  case locked => exact fun bounded => List.mem_append_left _ (cleared.locked bounded)
  case application => exact cleared.application held
  case deployment => exact cleared.deployment

/-- A registration keeps to the rely and meets both limits at its commit. -/
theorem claimDomain_safe (hostname reference : String) (fresh : Fresh) (now : Time)
    (db : Database) :
    Safe (limitRely environment) {} (fun _ => Claimed environment application)
      (claimDomain environment application hostname reference fresh now) ⟨[], id, db⟩ := by
  unfold claimDomain
  refine Safe.requireThen (fun _ => ?_) fun _ _ _ => trivial
  refine Safe.requireThen (fun _ => ?_) fun _ _ _ => trivial
  split
  next => exact Safe.of_raise fun _ _ => trivial
  next canonical accepted =>
    refine (lockApplication_safe environment application db).bind fun _ moment claiming => ?_
    refine (enforce_safe environment application claiming).bind fun _ moment cleared => ?_
    have window : Safe (limitRely environment) {} (fun _ => Cleared environment application)
        (enforceRegistrationLimit application now) moment :=
      Program.Within.safe (enforceRegistrationLimit_within (fun _ => False) application now)
        (Cleared environment application) (fun _ _ holds within => holds.later within)
        (fun _ _ _ _ never => never.elim) (fun _ _ => trivial) (fun _ _ _ _ => trivial)
        (fun _ _ holds => holds) cleared
    refine window.bind fun _ moment cleared => ?_
    refine (insertDomain_safe environment application cleared rfl rfl).bind ?_
    intro conflict moment claimed
    cases conflict with
    | some conflict =>
        cases conflict with
        | hostname => exact Safe.of_raise fun _ _ => trivial
        | other => exact Safe.of_raise fun _ _ => trivial
    | none =>
        exact Program.Within.safe (registered_within _ canonical fresh application.cnameTarget now)
          (Claimed environment application) (fun _ _ holds within => holds.later within)
          (fun _ _ _ holds rowWise => holds.written rowWise) (fun _ _ => trivial)
          (fun _ _ _ _ => trivial) (fun _ _ holds => holds) (claimed rfl)

end Claim

/-! ## A registration with room is not refused -/

/-- Both counts are below their limits, where these are set. -/
structure BelowLimits (environment : Environment) (application : Application) (db : Database) :
    Prop where
  application : ∀ limit, application.maxDomains = some limit →
    db.liveCount (some application.id) < limit
  deployment : ∀ limit, environment.maxDomains = some limit → db.liveCount none < limit

/-- Whatever others commit, the counts stay below the limits. -/
def roomRely (environment : Environment) (application : Application) : Rely store where
  Allows _ before after :=
    BelowLimits environment application before → BelowLimits environment application after
  refl _ _ below := below
  trans first second below := second (first below)
  mono within := within

/-- The registration never comes to refuse for a limit. -/
def unrefused : Outline store where
  raise error _ := NotLimitReached error

section Room

variable (environment : Environment) (application : Application)

/-- The registration has not inserted, and sees room. -/
structure Waiting (moment : Moment store) : Prop where
  touches : TouchesLocks moment.pending
  below : BelowLimits environment application moment.committed

theorem Waiting.view {moment : Moment store} (waiting : Waiting environment application moment) :
    BelowLimits environment application moment.view := by
  have count := fun scope => waiting.touches.liveCount moment.committed scope
  constructor
  case application =>
    intro limit set
    exact lt_of_eq_of_lt (congrArg Int.ofNat (count _)) (waiting.below.application limit set)
  case deployment =>
    intro limit set
    exact lt_of_eq_of_lt (congrArg Int.ofNat (count _)) (waiting.below.deployment limit set)

theorem Waiting.later {moment : Moment store} {db : Database}
    (waiting : Waiting environment application moment)
    (allows : (roomRely environment application).Allows moment.locks moment.committed db) :
    Waiting environment application (moment.later db) :=
  ⟨waiting.touches, allows waiting.below⟩

/-- A part of the registration that only touches lock rows. -/
theorem Waiting.safe {α : Type} {program : Sql α} {moment : Moment store}
    (waiting : Waiting environment application moment)
    (within : program.Within TouchesLocks NotLimitReached) :
    Safe (roomRely environment application) unrefused
      (fun _ => Waiting environment application) program moment :=
  within.safe (Waiting environment application)
    (fun _ _ holds allows => holds.later environment application allows)
    (fun _ _ _ holds touches => ⟨holds.touches.comp touches, holds.below⟩)
    (fun _ _ => trivial) (fun _ _ _ allowed => allowed) (fun _ _ holds => holds) waiting

/-- A limit is not reached while there is room. -/
theorem Waiting.enforceLimit_safe {moment : Moment store} {scope : LimitScope}
    {counted : Option Uuid} {limit : Option Int}
    (waiting : Waiting environment application moment)
    (room : ∀ db value, BelowLimits environment application db → limit = some value →
      db.liveCount counted < value) :
    Safe (roomRely environment application) unrefused
      (fun _ => Waiting environment application) (enforceLimit scope counted limit) moment := by
  refine CustomDomain.enforceLimit_safe (Waiting environment application)
    (Waiting environment application)
    (fun _ _ holds allows => holds.later environment application allows)
    (fun _ _ holds allows => holds.later environment application allows) (fun _ _ => trivial)
    (fun _ holds _ => holds) ?_ waiting
  intro moment value holds set full
  exact absurd (room _ value holds.view set) full

theorem Waiting.enforce_safe {moment : Moment store}
    (waiting : Waiting environment application moment) :
    Safe (roomRely environment application) unrefused
      (fun _ => Waiting environment application) (enforce environment application) moment := by
  have limits : ∀ moment, Waiting environment application moment →
      Safe (roomRely environment application) unrefused
        (fun _ => Waiting environment application)
        (do
          enforceLimit .application (some application.id) application.maxDomains
          enforceLimit .deployment none environment.maxDomains : Sql Unit) moment :=
    fun moment waiting =>
      (waiting.enforceLimit_safe environment application
        fun _ value below set => below.application value set).bind fun _ _ waiting =>
          waiting.enforceLimit_safe environment application
            fun _ value below set => below.deployment value set
  unfold enforce deploymentLimit
  cases set : environment.maxDomains with
  | none =>
      rw [set] at limits
      exact limits moment waiting
  | some limit =>
      rw [set] at limits
      dsimp only
      split
      next => exact Safe.of_raise fun _ _ _ _ _ => by simp
      next =>
        exact (waiting.safe environment application (acquireLock_within domainLimitLock
          ("application:" ++ uuidText application.id))).bind fun _ moment waiting =>
            limits moment waiting

theorem lockApplication_within {error : ServiceError → Prop} (applicationId : Uuid) :
    (lockApplication applicationId).Within TouchesLocks error :=
  fun _ => ⟨.id, trivial⟩

theorem claimDomain_unrefused (hostname reference : String) (fresh : Fresh) (now : Time)
    {db : Database} (below : BelowLimits environment application db) :
    Safe (roomRely environment application) unrefused (fun _ _ => True)
      (claimDomain environment application hostname reference fresh now) ⟨[], id, db⟩ := by
  have rest : ∀ {α : Type} {program : Sql α} {moment : Moment store},
      program.Within (fun _ => True) NotLimitReached →
      Safe (roomRely environment application) unrefused (fun _ _ => True) program moment :=
    fun within => within.safe (fun _ => True) (fun _ _ _ _ => trivial) (fun _ _ _ _ _ => trivial)
      (fun _ _ => trivial) (fun _ _ _ allowed => allowed) (fun _ _ _ => trivial) trivial
  unfold claimDomain
  refine Safe.requireThen (fun _ => ?_) fun _ _ _ _ _ _ => by simp
  refine Safe.requireThen (fun _ => ?_) fun _ _ _ _ _ _ => by simp
  split
  next => exact Safe.of_raise fun _ _ _ _ _ => by simp
  next canonical accepted =>
    refine (Waiting.safe environment application ⟨.id, below⟩
      (lockApplication_within application.id)).bind fun _ moment waiting => ?_
    refine (waiting.enforce_safe environment application).bind fun _ moment waiting => ?_
    -- Nothing after the limits can raise this error.
    refine rest ?_
    refine (enforceRegistrationLimit_within _ application now).bind fun _ => ?_
    refine Program.Within.bind (fun _ => ⟨trivial, trivial⟩) fun conflict => ?_
    cases conflict with
    | some conflict =>
        cases conflict with
        | hostname => exact fun _ _ _ => by simp
        | other => exact fun _ _ _ => by simp
    | none =>
        exact (registered_within _ canonical fresh application.cnameTarget now).mono
          (fun _ _ => trivial) fun _ allowed => allowed

end Room

/-! ## Any number of registrations and deletions -/

inductive LimitedOperation where
  | claimDomain (application : Application) (hostname reference : String) (fresh : Fresh)
      (now : Time)
  | deleteDomain (application : Application) (domainId : Uuid) (now : Time)

def LimitedOperation.program (environment : Environment) : LimitedOperation → Sql Domain
  | .claimDomain application hostname reference fresh now =>
      CustomDomain.claimDomain environment application hostname reference fresh now
  | .deleteDomain application domainId now =>
      CustomDomain.deleteDomain application domainId now

/-- What the operation guarantees when it commits. -/
def LimitedOperation.Post (environment : Environment) :
    LimitedOperation → Domain → Moment store → Prop
  | .claimDomain application _ _ _ _, _ => Claimed environment application
  | .deleteDomain _ _ _, _ => Removing Eq

theorem LimitedOperation.safe (environment : Environment) (operation : LimitedOperation)
    (db : Database) :
    Safe (limitRely environment) {} (operation.Post environment) (operation.program environment)
      ⟨[], id, db⟩ := by
  cases operation with
  | claimDomain application hostname reference fresh now =>
      exact claimDomain_safe environment application hostname reference fresh now db
  | deleteDomain application domainId now =>
      exact Removing.safe environment (fun _ => rfl) (fun _ _ _ => Eq.trans)
        (deleteDomain_within (fun _ => rfl) (fun _ _ => trivial) (fun _ _ => trivial)
          application domainId now) db

theorem Claimed.guarantees {α : Type} (environment : Environment) (application : Application) :
    State.Guarantees (limitRely environment)
      fun _ : α => Claimed environment application := by
  intro _ moment claimed locks disjoint
  constructor
  case edgeLocks => exact claimed.edgeLocks _
  case applications =>
    intro id
    unfold Database.application? Moment.view
    rw [claimed.applications]
  case keys =>
    intro id held present
    obtain ⟨own, locked, -, adds⟩ := claimed.key
    rw [Moment.view, adds] at present
    rcases List.mem_append.mp present with before | new
    · exact before
    · rw [List.mem_singleton.mp new] at held
      exact absurd held (disjoint _ locked)
  case application =>
    -- Another application's lock: its own row is this transaction's.
    intro id held
    have distinct : application.id ≠ id := by
      rintro rfl
      exact disjoint _ claimed.held held
    exact le_of_eq (by rw [Moment.view, claimed.counts]; simp [distinct])
  case deployment =>
    intro bounded held
    exact absurd held (disjoint _ (claimed.locked bounded))

theorem Removing.guarantees {kept : Application → Application → Prop} {α : Type}
    (environment : Environment) (key : ∀ {row row'}, kept row row' → row'.id = row.id) :
    State.Guarantees (limitRely environment) fun _ : α => Removing kept := by
  intro _ moment removing locks _
  constructor
  case edgeLocks => exact removing.edgeLocks _
  case applications =>
    intro id
    obtain ⟨update, keeps, applications⟩ := removing.applications moment.committed
    unfold Database.application? Moment.view
    rw [applications, List.find?_map, Option.isSome_map]
    congr 2
    funext row
    simp [key (keeps row)]
  case keys => exact fun id _ present => by rwa [Moment.view, removing.keys] at present
  case application => exact fun _ _ => removing.counts _ _
  case deployment => exact fun _ _ => removing.counts _ _

theorem LimitedOperation.guarantees (environment : Environment) (operation : LimitedOperation) :
    State.Guarantees (limitRely environment) (operation.Post environment) := by
  cases operation with
  | claimDomain application hostname reference fresh now =>
      exact Claimed.guarantees environment application
  | deleteDomain application domainId now =>
      exact Removing.guarantees environment fun same => by rw [same]

/-- Domain limits are exact: no registration commits past a limit, whatever
runs beside it, and none is refused for a limit if there is room from its start
on. -/
theorem domainLimits_exact {ι : Type} [DecidableEq ι] (environment : Environment)
    (operation : ι → LimitedOperation) (db : Database) {state : State store ι Domain}
    (reaches : ReflTransGen State.Step
      (State.start db fun index => (operation index).program environment) state)
    (index : ι) {application : Application} {hostname reference : String} {fresh : Fresh}
    {now : Time}
    (claims : operation index = .claimDomain application hostname reference fresh now) :
    (state.Enabled index → (state.session index).commits = true →
      (∀ limit, application.maxDomains = some limit →
        (state.advance index).committed.liveCount (some application.id) ≤ limit) ∧
      ∀ limit, environment.maxDomains = some limit →
        (state.advance index).committed.liveCount none ≤ limit) ∧
    ((state.session index).status = .running → (state.session index).executed = 0 →
      BelowLimits environment application state.committed →
      ∀ last, ReflTransGen
        (fun before after => State.Step before after ∧
          BelowLimits environment application after.committed) state last →
        ∀ scope limit live, ¬ last.Raises index (.domainLimitReached scope limit live)) := by
  constructor
  · intro enabled commits
    have safe := State.safeAt_of_reaches (fun index => (operation index).guarantees environment)
      (State.start_exclusive db _)
      (fun index => State.start_safeAt ((operation index).safe environment db)) reaches index
    obtain ⟨domain, -, claimed⟩ := safe.at_commit enabled.1 commits
    rw [claims] at claimed
    have counts : ∀ scope, ((state.moment index).view).liveCount scope = _ :=
      claimed.counts (state.moment index).committed
    rw [State.advance_committed_of_commits state index commits]
    constructor
    · intro limit set
      have room := claimed.application limit set
      have count := counts (some application.id)
      simp only [Option.all_some, decide_true, if_true] at count
      change (((state.moment index).view).liveCount (some application.id) : Int) ≤ limit
      omega
    · intro limit set
      have room := claimed.deployment limit set
      have count := counts none
      simp only [Option.all_none, if_true] at count
      change (((state.moment index).view).liveCount none : Int) ≤ limit
      omega
  · intro running unstarted below last onward scope limit live
    have start := State.session_of_unstarted reaches running unstarted
    have first : State.SafeAt (roomRely environment application) unrefused (fun _ _ => True)
        state index := by
      intro _
      have unrefused := claimDomain_unrefused environment application hostname reference fresh now
        below
      unfold State.moment
      rw [start, claims]
      exact unrefused
    have safe : State.SafeAt (roomRely environment application) unrefused (fun _ _ => True)
        last index := by
      induction onward with
      | refl => exact first
      | tail _ step ih => exact ih.step step.1 fun _ => step.2
    intro raises
    exact safe.raises raises scope limit live rfl

/-- Two registrations of an application with room for one domain. -/
def rivals : Bool → LimitedOperation
  | false => .claimDomain { sampleApplication with maxDomains := some 1 } "forms.example.com"
      "first" ⟨2, 3, "token"⟩ 0
  | true => .claimDomain { sampleApplication with maxDomains := some 1 } "shop.example.com"
      "second" ⟨4, 5, "other"⟩ 0

def rivalsStart : State store Bool Domain :=
  State.start ({ applications := [{ sampleApplication with maxDomains := some 1 }] } : Database)
    fun index => (rivals index).program { sampleEnvironment with maxDomains := some 1 }

/-- The first of them has come to its commit, the second waits. -/
def rivalry : State store Bool Domain := rivalsStart.follow (List.replicate 20 false)

theorem domainLimits_exact_rivals :
    rivalry.Enabled false ∧ (rivalry.session false).commits = true ∧ ¬ rivalry.Enabled true ∧
      (rivalry.advance false).committed.liveCount (some 1) = 1 ∧
      ((rivalry.advance false).committed.liveCount none : Int) ≤ 1 := by
  have reaches : ReflTransGen State.Step rivalsStart rivalry :=
    State.GuardedStep.reaches (State.CanFollow.guarded
      (show State.CanFollow (fun _ _ => True) rivalsStart (List.replicate 20 false) by
        decide +kernel))
  have enabled : rivalry.Enabled false := by decide +kernel
  have commits : (rivalry.session false).commits = true := by decide +kernel
  refine ⟨enabled, commits, by decide +kernel, by decide +kernel, ?_⟩
  exact ((domainLimits_exact _ rivals _ reaches false rfl).1 enabled commits).2 1 rfl

end CustomDomain
