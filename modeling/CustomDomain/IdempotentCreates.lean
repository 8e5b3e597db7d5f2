import CustomDomain.LedgerStatements
import CustomDomain.PythonJson
import CustomDomain.RegistrationStatements

/-!
# Idempotent create requests

`app/services/idempotency.py` and `create_domain` of `app/v1/router.py`: of the requests that are sent
with one key, at most one creates a domain, and every answer names it.
-/

namespace CustomDomain

open Transaction Relation PythonJson

/-! ## The records of a key -/

namespace IdempotencyKey

/-- `IDEMPOTENCY_TTL`. -/
def ttl : Time := hours 24

/-- `MAX_KEY_LENGTH`. -/
def maxLength : Nat := 255

/-- The stored row after a flush. -/
def patch (before after stored : IdempotencyKey) : IdempotencyKey :=
  { stored with
    requestHash := column before.requestHash after.requestHash stored.requestHash
    domainId := column before.domainId after.domainId stored.domainId
    createdAt := column before.createdAt after.createdAt stored.createdAt
    expiresAt := column before.expiresAt after.expiresAt stored.expiresAt }

/-- The record is the one of the application's key. -/
def isOf (applicationId : Uuid) (key : String) (record : IdempotencyKey) : Bool :=
  decide (record.applicationId = applicationId) && record.key == key

end IdempotencyKey

/-- The rows of an application's key: the unique constraint keeps them to one. -/
def Database.keyRecords (db : Database) (applicationId : Uuid) (key : String) : List IdempotencyKey :=
  db.idempotencyKeys.filter (IdempotencyKey.isOf applicationId key)

/-- `INSERT INTO idempotency_keys ...` in a savepoint; returns whether it succeeded.  While another
transaction's insert of the key is open, the insert waits. -/
def insertKey (record : IdempotencyKey) : Sql Bool :=
  .write
    (fun view => if (view.keyRecords record.applicationId record.key).isEmpty then
      [.idempotencyKey record.applicationId record.key] else [])
    (fun view db => if (view.keyRecords record.applicationId record.key).isEmpty then
      { db with idempotencyKeys := db.idempotencyKeys ++ [record] } else db)
    fun view => .pure (view.keyRecords record.applicationId record.key).isEmpty

/-- `SELECT ... FOR UPDATE` of the key's row. -/
def lockKey (applicationId : Uuid) (key : String) : Sql (Option IdempotencyKey) :=
  .write
    (fun view => if (view.keyRecords applicationId key).isEmpty then []
      else [.idempotencyKey applicationId key])
    (fun _ db => db)
    fun view => .pure (view.keyRecords applicationId key).head?

/-- `UPDATE idempotency_keys ...`. -/
def flushKey (before after : IdempotencyKey) : Sql Unit :=
  if after = before then .pure ()
  else
    .write
      (fun _ => [.idempotencyKey before.applicationId before.key])
      (fun _ db => { db with
        idempotencyKeys := db.idempotencyKeys.map fun record =>
          if record.isOf before.applicationId before.key then before.patch after record else record })
      fun view => if (view.keyRecords before.applicationId before.key).isEmpty then .raise .staleData
        else .pure ()

/-- `begin`, with whether the record is new or was reclaimed. -/
def beginKey (application : Application) (key requestHash : String) (now : Time) :
    Sql (IdempotencyKey × Bool) := do
  Program.require (key ≠ "" ∧ key.length ≤ IdempotencyKey.maxLength)
    (.invalidIdempotencyKey "Idempotency key must be 1-255 characters")
  let record : IdempotencyKey :=
    { applicationId := application.id
      key := key
      requestHash := requestHash
      createdAt := now
      expiresAt := now + IdempotencyKey.ttl }
  let inserted ← insertKey record
  if inserted then pure (record, true)
  else
    let found ← lockKey application.id key
    match found with
    | none => .raise (.integrityError "idempotency_keys")
    | some existing =>
        if existing.expiresAt ≤ now then
          let reclaimed :=
            { existing with
              requestHash := requestHash
              domainId := none
              createdAt := now
              expiresAt := now + IdempotencyKey.ttl }
          flushKey existing reclaimed
          pure (reclaimed, true)
        else pure (existing, false)

/-- `complete`. -/
def completeKey (record : IdempotencyKey) (domainId : Uuid) : Sql Unit :=
  flushKey record { record with domainId := some domainId }

/-- `purge_expired`. -/
def purgeExpiredKeys (now : Time) : Sql Nat :=
  .write
    (fun view => (view.idempotencyKeys.filter fun record => record.expiresAt ≤ now).map fun record =>
      .idempotencyKey record.applicationId record.key)
    (fun _ db => { db with
      idempotencyKeys := db.idempotencyKeys.filter fun record => !decide (record.expiresAt ≤ now) })
    fun view => .pure (view.idempotencyKeys.filter fun record => record.expiresAt ≤ now).length

/-! ## The request -/

/-- A `POST /v1/domains`, with what it draws and the clock where it begins and where it registers. -/
structure CreateRequest where
  hostname : String
  reference : String
  metadata : Json := .null
  idempotencyKey : Option String := none
  fresh : Fresh
  begun : Time
  registered : Time

/-- `payload.model_dump`. -/
def CreateRequest.payload (request : CreateRequest) : Json :=
  .obj [("hostname", .str request.hostname), ("reference", .str request.reference),
    ("metadata", request.metadata)]

/-- A 2xx answer: 200 where it is replayed, else 201. -/
structure CreateAnswer where
  domain : Domain
  replayed : Bool

section Create

variable (environment : Environment) (fingerprint : Json → String) (application : Application)
  (request : CreateRequest)

/-- The rest of `create_domain` once the key, if any, is the request's own. -/
def createUnder (record : Option IdempotencyKey) : Sql CreateAnswer := do
  let domain ← claimDomain environment application request.hostname request.reference request.fresh
    request.registered
  match record with
  | none => pure ⟨domain, false⟩
  | some record => do
      completeKey record domain.id
      pure ⟨domain, false⟩

/-- `create_domain`. -/
def createDomain : Sql CreateAnswer :=
  match request.idempotencyKey.filter (· ≠ "") with
  | none => createUnder environment application request none
  | some key => do
      let (record, created) ← beginKey application key (fingerprint request.payload) request.begun
      if created then createUnder environment application request (some record)
      else if record.requestHash ≠ fingerprint request.payload then
        .raise (.idempotencyKeyReused
          "Idempotency-Key was already used with a different request body")
      else
        match record.domainId with
        | none => .raise (.idempotencyInProgress
            "A request with this Idempotency-Key is still being processed")
        | some domainId => do
            let domain ← getDomain application domainId true
            pure ⟨domain, true⟩

end Create

/-! ## Statements that leave the records alone -/

section Statements

/-- The change leaves the records of all keys as they are. -/
def KeepsKeys (change : Database → Database) : Prop :=
  ∀ db, (change db).idempotencyKeys = db.idempotencyKeys

/-- The two errors about the record of a key. -/
def ServiceError.isAboutKey : ServiceError → Bool
  | .idempotencyInProgress _ | .idempotencyKeyReused _ => true
  | _ => false

def NotAboutKey (error : ServiceError) : Prop := error.isAboutKey = false

theorem TouchesLocks.keepsKeys {change : Database → Database} (touches : TouchesLocks change) :
    KeepsKeys change := by
  intro db
  obtain ⟨locks, changed⟩ := touches.rows db
  rw [changed]

theorem insertDomain_keys (domain : Domain) : (insertDomain domain).Within KeepsKeys NotAboutKey := by
  refine fun view => ⟨?_, trivial⟩
  dsimp only
  split
  next => exact fun _ => rfl
  next => exact fun _ => rfl

theorem insertCheck_keys (domainId : Uuid) (check : DomainCheck) :
    (insertCheck domainId check).Within KeepsKeys NotAboutKey := by
  refine fun view => ⟨fun _ => rfl, ?_⟩
  dsimp only
  split
  next => exact rfl
  next =>
    split
    next => exact rfl
    next => exact trivial

theorem insertChecks_keys (domain : Domain) :
    (Program.foldEach CheckType.all domain fun domain checkType => do
      insertCheck domain.id { checkType := checkType }
      pure (domain.addCheck { checkType := checkType }) : Sql Domain).Within KeepsKeys NotAboutKey :=
  .foldEach fun _ _ => (insertCheck_keys _ _).bind fun _ => trivial

theorem insertClaim_keys (domainId : Uuid) (claim : OwnershipClaim) :
    (insertClaim domainId claim).Within KeepsKeys NotAboutKey := by
  refine fun view => ⟨fun _ => rfl, ?_⟩
  dsimp only
  split_ifs
  · exact rfl
  · exact rfl
  · exact trivial
  · exact rfl

theorem recordEvent_keys (domain : Domain) (payload : EventPayload) (now : Time) :
    (recordEvent domain payload now).Within KeepsKeys NotAboutKey := by
  refine fun view => fun _ => ⟨fun _ => rfl, ?_⟩
  unfold enqueueForEvent
  split
  next => exact trivial
  next =>
    intro view
    dsimp only
    split
    next => exact trivial
    next => exact fun _ => ⟨fun _ => rfl, trivial⟩

theorem refresh_keys (domain : Domain) : (refresh domain).Within KeepsKeys NotAboutKey := by
  refine (selectDomain_ledger _).bind fun found => ?_
  cases found with
  | none => exact rfl
  | some loaded => exact trivial

theorem enforce_keys (environment : Environment) (application : Application) :
    (enforce environment application).Within KeepsKeys NotAboutKey := by
  have limited : ∀ scope counted limit,
      (enforceLimit scope counted limit).Within KeepsKeys NotAboutKey := by
    intro scope counted limit
    cases limit with
    | none => exact trivial
    | some limit =>
        refine Program.Within.bind (fun _ => trivial) fun live => ?_
        exact .require rfl
  unfold enforce
  refine Program.Within.bind ?_ fun limit => ?_
  · unfold deploymentLimit
    split
    next => exact trivial
    next =>
      split
      next => exact rfl
      next => exact trivial
  · have limits := (limited .application (some application.id) application.maxDomains).bind
      fun _ => limited .deployment none limit
    dsimp only
    split
    next =>
      have locking : (acquireLock domainLimitLock ("application:" ++ uuidText application.id)).Within
          TouchesLocks NotAboutKey := acquireLock_within _ _
      exact (locking.mono (fun _ touches => touches.keepsKeys) fun _ other => other).bind fun _ => limits
    next => exact limits

theorem lockApplication_keys (applicationId : Uuid) :
    (lockApplication applicationId).Within KeepsKeys NotAboutKey :=
  fun _ => ⟨fun _ => rfl, trivial⟩

theorem enforceRegistrationLimit_keys (application : Application) (now : Time) :
    (enforceRegistrationLimit application now).Within KeepsKeys NotAboutKey := by
  unfold enforceRegistrationLimit enforceWindow
  refine Program.Within.bind (fun _ => trivial) fun count => ?_
  split
  next => exact fun _ => rfl
  next => exact trivial

/-- A registration leaves the records alone. -/
theorem claimDomain_keys (environment : Environment) (application : Application)
    (hostname reference : String) (fresh : Fresh) (now : Time) :
    (claimDomain environment application hostname reference fresh now).Within KeepsKeys NotAboutKey := by
  unfold claimDomain
  apply Program.Within.requireThen
  · exact rfl
  apply Program.Within.requireThen
  · exact rfl
  split
  next => exact rfl
  next canonical _ =>
    refine (lockApplication_keys application.id).bind fun _ => ?_
    refine (enforce_keys environment application).bind fun _ => ?_
    refine (enforceRegistrationLimit_keys application now).bind fun _ => ?_
    refine (insertDomain_keys _).bind fun conflict => ?_
    split
    next => exact rfl
    next => exact rfl
    next =>
      refine (insertChecks_keys _).bind fun domain => ?_
      refine (recordEvent_keys _ _ _).bind fun _ => ?_
      refine Program.Within.bind ?_ fun domain => refresh_keys domain
      exact (insertClaim_keys _ _).bind fun _ => (recordEvent_keys _ _ _).bind fun _ => trivial

end Statements

/-! ## What may become of the record of a key -/

section Key

variable (clock : Time → Prop)

/-- The record of a domain, which none of these clocks has expired. -/
def IdempotencyKey.Bound (record : IdempotencyKey) : Prop :=
  record.domainId.isSome = true ∧ ∀ now, clock now → now < record.expiresAt

/-- All of these clocks have expired the record. -/
def IdempotencyKey.Stale (record : IdempotencyKey) : Prop :=
  ∀ now, clock now → record.expiresAt ≤ now

/-- The records of a key that a request may take. -/
def Vacant (records : List IdempotencyKey) : Prop :=
  records = [] ∨ ∃ record : IdempotencyKey, record.Stale clock ∧ records = [record]

/-- The records of a key that a request has taken. -/
def Taken (records : List IdempotencyKey) : Prop :=
  ∃ record : IdempotencyKey, record.Bound clock ∧ records = [record]

/-- A vacant key may be purged or taken, and a taken key stays as it is. -/
def Settles (before after : List IdempotencyKey) : Prop :=
  after = before ∨ (Vacant clock before ∧ (after = [] ∨ Taken clock after))

variable {clock}

theorem Settles.trans {first second third : List IdempotencyKey} (one : Settles clock first second)
    (two : Settles clock second third) : Settles clock first third := by
  rcases two with rfl | ⟨between, later⟩
  · exact one
  · rcases one with rfl | ⟨vacant, -⟩
    · exact .inr ⟨between, later⟩
    · exact .inr ⟨vacant, later⟩

theorem Settles.decided {before after : List IdempotencyKey} (settles : Settles clock before after)
    (decided : Vacant clock before ∨ Taken clock before) : Vacant clock after ∨ Taken clock after := by
  rcases settles with rfl | ⟨-, rfl | taken⟩
  · exact decided
  · exact .inl (.inl rfl)
  · exact .inr taken

theorem Vacant.not_taken {records : List IdempotencyKey} {now : Time} (vacant : Vacant clock records)
    (timely : clock now) : ¬ Taken clock records := by
  rintro ⟨record, bound, rfl⟩
  rcases vacant with none_ | ⟨other, stale, same⟩
  · cases none_
  · cases same
    exact absurd (stale now timely) (not_le_of_gt (bound.2 now timely))

theorem Settles.taken {before after : List IdempotencyKey} {now : Time}
    (settles : Settles clock before after) (timely : clock now) (taken : Taken clock before) :
    after = before := by
  rcases settles with same | ⟨vacant, -⟩
  · exact same
  · exact absurd taken (vacant.not_taken timely)

variable (clock)

/-- While a transaction holds the key, the others leave its record; else they may settle it. -/
def keyRely (applicationId : Uuid) (key : String) : Rely store where
  Allows locks before after :=
    (Row.idempotencyKey applicationId key ∈ locks →
      after.keyRecords applicationId key = before.keyRecords applicationId key) ∧
    Settles clock (before.keyRecords applicationId key) (after.keyRecords applicationId key)
  refl _ _ := ⟨fun _ => rfl, .inl rfl⟩
  trans first second :=
    ⟨fun held => (second.1 held).trans (first.1 held), first.2.trans second.2⟩
  mono allows := ⟨fun held => allows.1 (List.mem_append_left _ held), allows.2⟩

/-- The transaction has changed nothing, and the key is vacant or taken. -/
structure Asking (applicationId : Uuid) (key : String) (moment : Moment store) : Prop where
  pending : ∀ db, moment.pending db = db
  decided : Vacant clock (moment.committed.keyRecords applicationId key) ∨
    Taken clock (moment.committed.keyRecords applicationId key)

/-- The transaction has taken the vacant key, with this record. -/
structure Taking (applicationId : Uuid) (key : String) (record : IdempotencyKey)
    (moment : Moment store) : Prop where
  held : Row.idempotencyKey applicationId key ∈ moment.locks
  vacant : Vacant clock (moment.committed.keyRecords applicationId key)
  records : ∀ db : Database,
    db.keyRecords applicationId key = moment.committed.keyRecords applicationId key →
      (moment.pending db).keyRecords applicationId key = [record]

/-- The transaction has found the key taken, with this record, and has changed nothing. -/
structure Replaying (applicationId : Uuid) (key : String) (record : IdempotencyKey)
    (moment : Moment store) : Prop where
  held : Row.idempotencyKey applicationId key ∈ moment.locks
  pending : ∀ db, moment.pending db = db
  bound : record.Bound clock
  records : moment.committed.keyRecords applicationId key = [record]

variable {clock} {applicationId : Uuid} {key : String} {record : IdempotencyKey}
  {moment : Moment store} {db : Database}

theorem Asking.later (asking : Asking clock applicationId key moment)
    (allows : (keyRely clock applicationId key).Allows moment.locks moment.committed db) :
    Asking clock applicationId key (moment.later db) :=
  ⟨asking.pending, allows.2.decided asking.decided⟩

theorem Asking.view (asking : Asking clock applicationId key moment) :
    moment.view = moment.committed :=
  asking.pending _

theorem Taking.later (taking : Taking clock applicationId key record moment)
    (allows : (keyRely clock applicationId key).Allows moment.locks moment.committed db) :
    Taking clock applicationId key record (moment.later db) := by
  have same := allows.1 taking.held
  constructor
  · exact taking.held
  · rw [Moment.later, same]
    exact taking.vacant
  · intro other equal
    exact taking.records other (equal.trans same)

theorem Replaying.later (replaying : Replaying clock applicationId key record moment)
    (allows : (keyRely clock applicationId key).Allows moment.locks moment.committed db) :
    Replaying clock applicationId key record (moment.later db) :=
  ⟨replaying.held, replaying.pending, replaying.bound, (allows.1 replaying.held).trans replaying.records⟩

theorem KeepsKeys.keyRecords {change : Database → Database} (keeps : KeepsKeys change) (db : Database) :
    (change db).keyRecords applicationId key = db.keyRecords applicationId key := by
  rw [Database.keyRecords, keeps db, Database.keyRecords]

theorem Taking.written (taking : Taking clock applicationId key record moment)
    {rows : Database → List Row} {change : Database → Database → Database}
    (keeps : KeepsKeys (change moment.view)) :
    Taking clock applicationId key record (moment.written rows change) where
  held := List.mem_append_left _ taking.held
  vacant := taking.vacant
  records db same := (keeps.keyRecords _).trans (taking.records db same)

theorem IdempotencyKey.isOf_iff {applicationId : Uuid} {key : String} {record : IdempotencyKey} :
    record.isOf applicationId key = true ↔ record.applicationId = applicationId ∧ record.key = key := by
  simp [IdempotencyKey.isOf]

/-- The records of a key after an update of them. -/
theorem Database.keyRecords_map (db : Database) (applicationId : Uuid) (key : String)
    {change : IdempotencyKey → IdempotencyKey}
    (keeps : ∀ record : IdempotencyKey, (change record).applicationId = record.applicationId ∧
      (change record).key = record.key) :
    ({ db with
      idempotencyKeys := db.idempotencyKeys.map fun record =>
        if record.isOf applicationId key then change record else record } : Database).keyRecords
        applicationId key = (db.keyRecords applicationId key).map change := by
  unfold Database.keyRecords
  dsimp only
  induction db.idempotencyKeys with
  | nil => rfl
  | cons record records ih =>
      have same : (change record).isOf applicationId key = record.isOf applicationId key := by
        rw [IdempotencyKey.isOf, IdempotencyKey.isOf, (keeps record).1, (keeps record).2]
      cases mine : record.isOf applicationId key with
      | true =>
          rw [List.map_cons, if_pos mine, List.filter_cons_of_pos (same.trans mine),
            List.filter_cons_of_pos mine, List.map_cons, ih]
      | false =>
          have other : ¬ record.isOf applicationId key = true := by simp [mine]
          rw [List.map_cons, if_neg other, List.filter_cons_of_neg other, List.filter_cons_of_neg other, ih]

/-- An update of the record that the transaction has taken. -/
theorem Taking.flush {after : IdempotencyKey} (taking : Taking clock applicationId key record moment)
    (own : record.isOf applicationId key = true) (owner : after.applicationId = record.applicationId)
    (named : after.key = record.key) :
    Taking clock applicationId key after (moment.written
      (fun _ => [.idempotencyKey record.applicationId record.key])
      (fun _ db => { db with
        idempotencyKeys := db.idempotencyKeys.map fun other =>
          if other.isOf record.applicationId record.key then record.patch after other else other })) := by
  obtain ⟨rfl, rfl⟩ := IdempotencyKey.isOf_iff.mp own
  refine ⟨List.mem_append_left _ taking.held, taking.vacant, fun db same => ?_⟩
  have keeps : ∀ other : IdempotencyKey, (record.patch after other).applicationId =
      other.applicationId ∧ (record.patch after other).key = other.key := fun _ => ⟨rfl, rfl⟩
  refine ((moment.pending db).keyRecords_map record.applicationId record.key keeps).trans ?_
  rw [taking.records db same, List.map_singleton]
  obtain ⟨_, _, _, _, _, _⟩ := after
  cases owner
  cases named
  simp [IdempotencyKey.patch]

end Key

/-! ## One request among the others -/

section Requests

variable {clock : Time → Prop} {applicationId : Uuid} {key : String} {fingerprint : Json → String}
  {request : CreateRequest} {moment : Moment store}

/-- The errors of a request: it never finds its key in progress, and where it is told that the key was
used for another body, the record has another fingerprint. -/
def createOutline (clock : Time → Prop) (applicationId : Uuid) (key requestHash : String) :
    Outline store where
  raise error moment :=
    (∀ message, error ≠ .idempotencyInProgress message) ∧
      ∀ message, error = .idempotencyKeyReused message → ∃ record : IdempotencyKey,
        record.Bound clock ∧ moment.committed.keyRecords applicationId key = [record] ∧
          record.requestHash ≠ requestHash

/-- An answered request holds its key, whose record names the domain of the answer: either it has taken
the vacant key or it has changed nothing. -/
structure Created (clock : Time → Prop) (applicationId : Uuid) (key requestHash : String)
    (answer : CreateAnswer) (moment : Moment store) : Prop where
  held : Row.idempotencyKey applicationId key ∈ moment.locks
  record : ∃ record : IdempotencyKey, record.Bound clock ∧
    (∀ db : Database, db.keyRecords applicationId key = moment.committed.keyRecords applicationId key →
      (moment.pending db).keyRecords applicationId key = [record]) ∧
    record.domainId = some answer.domain.id ∧ record.requestHash = requestHash
  replayed : answer.replayed = true → ∀ db, moment.pending db = db
  taken : answer.replayed = false → Vacant clock (moment.committed.keyRecords applicationId key)

variable {requestHash : String}

theorem Created.later {answer : CreateAnswer}
    (created : Created clock applicationId key requestHash answer moment) {db : Database}
    (allows : (keyRely clock applicationId key).Allows moment.locks moment.committed db) :
    Created clock applicationId key requestHash answer (moment.later db) := by
  have same := allows.1 created.held
  obtain ⟨record, bound, records, names⟩ := created.record
  refine ⟨created.held, ⟨record, bound, fun other equal => ?_, names⟩, created.replayed, fun fresh => ?_⟩
  · exact records other (equal.trans same)
  · rw [Moment.later, same]
    exact created.taken fresh

theorem createOutline_raise {error : ServiceError} (other : NotAboutKey error)
    (moment : Moment store) : (createOutline clock applicationId key requestHash).raise error moment := by
  constructor
  · rintro message rfl
    cases other
  · rintro message rfl
    cases other

theorem flushKey_safe {record after : IdempotencyKey}
    (taking : Taking clock applicationId key record moment) (own : record.isOf applicationId key = true)
    (owner : after.applicationId = record.applicationId) (named : after.key = record.key) :
    Safe (keyRely clock applicationId key) (createOutline clock applicationId key requestHash)
      (fun _ => Taking clock applicationId key after) (flushKey record after) moment := by
  unfold flushKey
  split
  next same =>
    subst same
    exact Safe.of_pure fun db allows => taking.later allows
  next =>
    refine Safe.of_write fun db allows => ?_
    have now := taking.later allows
    obtain ⟨rfl, rfl⟩ := IdempotencyKey.isOf_iff.mp own
    have found := now.records _ rfl
    change (moment.later db).view.keyRecords record.applicationId record.key = [record] at found
    dsimp only
    rw [found]
    exact Safe.of_pure fun db' allows' => (now.flush own owner named).later allows'

theorem insertKey_safe {record : IdempotencyKey} (own : record.isOf applicationId key = true)
    (asking : Asking clock applicationId key moment) :
    Safe (keyRely clock applicationId key) (createOutline clock applicationId key requestHash)
      (fun inserted moment => if inserted then Taking clock applicationId key record moment
        else Asking clock applicationId key moment) (insertKey record) moment := by
  obtain ⟨rfl, rfl⟩ := IdempotencyKey.isOf_iff.mp own
  refine Safe.of_write fun db allows => ?_
  have now := asking.later allows
  refine Safe.of_pure fun db' allows' => ?_
  have seen : (moment.later db).view = db := now.view
  dsimp only
  rw [seen]
  cases vacant : (db.keyRecords record.applicationId record.key).isEmpty with
  | true =>
      rw [if_pos rfl]
      refine Taking.later ?_ allows'
      have none_ : db.keyRecords record.applicationId record.key = [] := List.isEmpty_iff.mp vacant
      constructor
      · apply List.mem_append_right
        rw [seen]
        dsimp only
        rw [if_pos vacant]
        exact List.mem_singleton_self _
      · exact .inl none_
      · intro other same
        change Database.keyRecords ((if _ then _ else _ : Database)) _ _ = _
        rw [seen, if_pos vacant, now.pending]
        have without : other.keyRecords record.applicationId record.key = [] := same.trans none_
        unfold Database.keyRecords at without ⊢
        rw [List.filter_append, without, List.filter_cons_of_pos own]
        rfl
  | false =>
      rw [if_neg (by simp)]
      refine Asking.later ?_ allows'
      refine ⟨fun other => ?_, now.decided⟩
      change (if _ then _ else _ : Database) = _
      rw [seen, if_neg (by simp [vacant]), now.pending]

theorem Database.isOf_of_keyRecords {db : Database} {record : IdempotencyKey}
    (records : db.keyRecords applicationId key = [record]) : record.isOf applicationId key = true :=
  (List.mem_filter.mp (records ▸ List.mem_singleton_self record :
    record ∈ db.keyRecords applicationId key)).2

/-- The record that is found under its lock has expired for all, or for none. -/
theorem lockKey_safe (asking : Asking clock applicationId key moment) :
    Safe (keyRely clock applicationId key) (createOutline clock applicationId key requestHash)
      (fun found moment => ∀ record, found = some record → record.isOf applicationId key = true ∧
        ((record.Stale clock ∧ Taking clock applicationId key record moment) ∨
          Replaying clock applicationId key record moment))
      (lockKey applicationId key) moment := by
  refine Safe.of_write fun db allows => ?_
  have now := asking.later allows
  have seen : (moment.later db).view = db := now.view
  refine Safe.of_pure fun db' allows' record found => ?_
  rw [seen] at found
  have records : db.keyRecords applicationId key = [record] := by
    rcases now.decided with (none_ | ⟨other, -, one⟩) | ⟨other, -, one⟩
    · change db.keyRecords applicationId key = [] at none_
      rw [none_] at found
      cases found
    · change db.keyRecords applicationId key = [other] at one
      rw [one] at found
      cases found
      exact one
    · change db.keyRecords applicationId key = [other] at one
      rw [one] at found
      cases found
      exact one
  have held : Row.idempotencyKey applicationId key ∈ ((moment.later db).written
      (fun view => if (Database.keyRecords view applicationId key).isEmpty then []
        else [.idempotencyKey applicationId key]) fun _ db => db).locks := by
    apply List.mem_append_right
    rw [seen]
    dsimp only
    rw [records, if_neg (by simp)]
    exact List.mem_singleton_self _
  refine ⟨Database.isOf_of_keyRecords records, ?_⟩
  rcases now.decided with vacant | ⟨other, bound, one⟩
  · left
    constructor
    · rcases vacant with none_ | ⟨other, stale, one⟩
      · cases records.symm.trans none_
      · cases records.symm.trans one
        exact stale
    · refine Taking.later ⟨held, vacant, fun other same => ?_⟩ allows'
      change Database.keyRecords ((moment.later db).pending other) _ _ = _
      rw [now.pending]
      exact same.trans records
  · right
    cases records.symm.trans one
    exact Replaying.later ⟨held, now.pending, bound, one⟩ allows'

/-- What `begin` leaves: the record it has written, or the one that it has found. -/
theorem beginKey_safe {application : Application} (timely : clock request.begun)
    (asking : Asking clock application.id key moment) :
    Safe (keyRely clock application.id key) (createOutline clock application.id key requestHash)
      (fun begun moment => begun.1.isOf application.id key = true ∧
        if begun.2 then Taking clock application.id key begun.1 moment ∧
          begun.1.requestHash = requestHash ∧ begun.1.expiresAt = request.begun + IdempotencyKey.ttl
        else Replaying clock application.id key begun.1 moment)
      (beginKey application key requestHash request.begun) moment := by
  unfold beginKey
  refine Safe.requireThen (fun _ => ?_) fun _ _ _ => createOutline_raise (by exact rfl) _
  have own : IdempotencyKey.isOf application.id key
      { applicationId := application.id, key := key, requestHash := requestHash,
        createdAt := request.begun, expiresAt := request.begun + IdempotencyKey.ttl } = true :=
    IdempotencyKey.isOf_iff.mpr ⟨rfl, rfl⟩
  refine (insertKey_safe own asking).bind fun inserted moment begun => ?_
  cases inserted with
  | true => exact Safe.of_pure fun db allows => ⟨own, Taking.later begun allows, rfl, rfl⟩
  | false =>
      refine (lockKey_safe begun).bind fun found moment known => ?_
      cases found with
      | none => exact Safe.of_raise fun _ _ => createOutline_raise (by exact rfl) _
      | some record =>
          obtain ⟨own, ⟨stale, taking⟩ | replaying⟩ := known record rfl
          · dsimp only
            rw [if_pos (stale _ timely)]
            refine (flushKey_safe taking own (by exact rfl) (by exact rfl)).bind fun _ moment taking => ?_
            exact Safe.of_pure fun db allows => ⟨own, taking.later allows, rfl, rfl⟩
          · dsimp only
            rw [if_neg (not_le_of_gt (replaying.bound.2 _ timely))]
            exact Safe.of_pure fun db allows => ⟨own, replaying.later allows⟩

/-- The rest of a request that has taken its key. -/
theorem createUnder_safe (environment : Environment) {application : Application}
    {record : IdempotencyKey} (lasting : ∀ now, clock now → now < record.expiresAt)
    (own : record.isOf application.id key = true) (hashed : record.requestHash = requestHash)
    (taking : Taking clock application.id key record moment) :
    Safe (keyRely clock application.id key) (createOutline clock application.id key requestHash)
      (Created clock application.id key requestHash)
      (createUnder environment application request (some record)) moment := by
  have claims : Safe (keyRely clock application.id key)
      (createOutline clock application.id key requestHash)
      (fun _ => Taking clock application.id key record)
      (claimDomain environment application request.hostname request.reference request.fresh
        request.registered) moment :=
    (claimDomain_keys environment application _ _ _ _).safe (Taking clock application.id key record)
      (fun _ _ taking allows => taking.later allows) (fun _ _ _ taking keeps => taking.written keeps)
      (fun _ _ => trivial) (fun _ moment _ other => createOutline_raise other moment)
      (fun _ _ taking => taking) taking
  refine claims.bind fun domain moment taking => ?_
  dsimp only
  refine Safe.bind (flushKey_safe taking own (by exact rfl) (by exact rfl)) fun _ moment taking => ?_
  refine Safe.of_pure fun db allows => ?_
  have now := taking.later allows
  refine ⟨now.held, ⟨{ record with domainId := some domain.id }, ⟨rfl, lasting⟩, now.records, rfl,
    hashed⟩, fun replayed => ?_, fun _ => now.vacant⟩
  cases replayed

/-- A request with the key, whatever the others settle meanwhile. -/
theorem createDomain_safe (environment : Environment) {application : Application}
    (named : request.idempotencyKey = some key) (some_ : key ≠ "") (timely : clock request.begun)
    (lasting : ∀ now, clock now → now < request.begun + IdempotencyKey.ttl)
    (asking : Asking clock application.id key moment) :
    Safe (keyRely clock application.id key)
      (createOutline clock application.id key (fingerprint request.payload))
      (Created clock application.id key (fingerprint request.payload))
      (createDomain environment fingerprint application request) moment := by
  have keyed : request.idempotencyKey.filter (· ≠ "") = some key := by
    rw [named, Option.filter_some, if_pos (by simpa using some_)]
  unfold createDomain
  rw [keyed]
  dsimp only
  refine (beginKey_safe timely asking).bind fun begun moment holds => ?_
  obtain ⟨record, created⟩ := begun
  obtain ⟨own, holds⟩ := holds
  dsimp only at own holds ⊢
  cases created with
  | true =>
      obtain ⟨taking, hashed, expires⟩ := holds
      exact createUnder_safe environment (fun now timely => expires ▸ lasting now timely) own hashed taking
  | false =>
      have replaying : Replaying clock application.id key record moment := holds
      rw [if_neg (by simp)]
      split
      next other =>
        refine Safe.of_raise fun db allows => ⟨fun _ => by simp, fun _ _ => ?_⟩
        exact ⟨record, replaying.bound, (replaying.later allows).records, other⟩
      next same =>
        obtain ⟨domainId, known⟩ := Option.isSome_iff_exists.mp replaying.bound.1
        rw [known]
        dsimp only
        refine (getDomain_safe (Replaying clock application.id key record) replaying
          (fun _ _ replaying allows => replaying.later allows) (fun _ => trivial)
          (fun moment _ => createOutline_raise (by exact rfl) moment) application domainId
          true).bind fun domain moment found => ?_
        obtain ⟨replaying, id, -⟩ := found
        refine Safe.of_pure fun db allows => ?_
        have now := replaying.later allows
        refine ⟨now.held, ⟨record, now.bound, fun other equal => ?_, ?_, not_not.mp same⟩,
          fun _ => now.pending, fun fresh => by cases fresh⟩
        · rw [now.pending]
          exact equal.trans now.records
        · rw [known, id]

end Requests

/-! ## Any number of requests -/

/-- The change leaves the records of one key as they are. -/
def LeavesKey (applicationId : Uuid) (key : String) (change : Database → Database) : Prop :=
  ∀ db, (change db).keyRecords applicationId key = db.keyRecords applicationId key

/-- A transaction: a request with the key, a purge of expired keys, or any other one. -/
inductive KeyParty where
  | create (request : CreateRequest)
  | purge (now : Time)
  | other (program : Sql Unit)

namespace KeyParty

def program (environment : Environment) (fingerprint : Json → String) (application : Application) :
    KeyParty → Sql (Option CreateAnswer)
  | .create request => do
      let answer ← createDomain environment fingerprint application request
      pure (some answer)
  | .purge now => do
      let _ ← purgeExpiredKeys now
      pure none
  | .other program => do
      program
      pure none

/-- The clock by which it takes keys for expired. -/
def time? : KeyParty → Option Time
  | .create request => some request.begun
  | .purge now => some now
  | .other _ => none

/-- What it is allowed to be. -/
def Fits (applicationId : Uuid) (key : String) : KeyParty → Prop
  | .create request => request.idempotencyKey = some key
  | .purge _ => True
  | .other program => program.Within (LeavesKey applicationId key) fun _ => True

end KeyParty

section Parties

variable {ι : Type} (parties : ι → KeyParty)

/-- The clocks of all parties. -/
def clocks (now : Time) : Prop := ∃ index, (parties index).time? = some now

/-- A purge that is about to commit: it holds the key unless there is nothing of it to purge. -/
structure Purging (clock : Time → Prop) (applicationId : Uuid) (key : String) (now : Time)
    (moment : Moment store) : Prop where
  held : Row.idempotencyKey applicationId key ∈ moment.locks ∨
    ∀ record : IdempotencyKey, record.Stale clock →
      moment.committed.keyRecords applicationId key ≠ [record]
  decided : Vacant clock (moment.committed.keyRecords applicationId key) ∨
    Taken clock (moment.committed.keyRecords applicationId key)
  records : ∀ db : Database, (moment.pending db).keyRecords applicationId key =
    (db.keyRecords applicationId key).filter fun record => !decide (record.expiresAt ≤ now)

/-- What a party has done when it commits. -/
def KeyParty.Post (clock : Time → Prop) (fingerprint : Json → String) (applicationId : Uuid)
    (key : String) (party : KeyParty) (value : Option CreateAnswer) (moment : Moment store) : Prop :=
  match party with
  | .create request => ∃ answer, value = some answer ∧
      Created clock applicationId key (fingerprint request.payload) answer moment
  | .purge now => value = none ∧ Purging clock applicationId key now moment
  | .other _ => value = none ∧ ∀ db : Database,
      (moment.pending db).keyRecords applicationId key = db.keyRecords applicationId key

variable {clock : Time → Prop} {fingerprint : Json → String} {applicationId : Uuid} {key : String}
  {moment : Moment store}

theorem Purging.later {now : Time} (timely : clock now)
    (purging : Purging clock applicationId key now moment) {db : Database}
    (allows : (keyRely clock applicationId key).Allows moment.locks moment.committed db) :
    Purging clock applicationId key now (moment.later db) := by
  refine ⟨?_, allows.2.decided purging.decided, purging.records⟩
  rcases purging.held with held | kept
  · exact .inl held
  · right
    intro record stale same
    change db.keyRecords applicationId key = [record] at same
    rcases allows.2 with equal | ⟨-, none_ | taken⟩
    · exact kept record stale (equal ▸ same)
    · cases none_.symm.trans same
    · exact (Vacant.not_taken (.inr ⟨record, stale, same⟩) timely) taken

theorem purgeExpiredKeys_safe {now : Time} (timely : clock now) {outline : Outline store}
    (asking : Asking clock applicationId key moment) :
    Safe (keyRely clock applicationId key) outline
      (fun _ => Purging clock applicationId key now) (purgeExpiredKeys now) moment := by
  refine Safe.of_write fun db allows => ?_
  have begun := asking.later allows
  have seen : (moment.later db).view = db := begun.view
  refine Safe.of_pure fun db' allows' => Purging.later timely ?_ allows'
  refine ⟨?_, begun.decided, fun other => ?_⟩
  · by_cases stale : ∃ record : IdempotencyKey, record.Stale clock ∧
        db.keyRecords applicationId key = [record]
    · left
      obtain ⟨record, expired, records⟩ := stale
      have member := List.mem_filter.mp (records ▸ List.mem_singleton_self record :
        record ∈ db.keyRecords applicationId key)
      obtain ⟨owner, named⟩ := IdempotencyKey.isOf_iff.mp member.2
      apply List.mem_append_right
      rw [seen]
      refine List.mem_map.mpr ⟨record, List.mem_filter.mpr ⟨member.1, ?_⟩, by rw [owner, named]⟩
      exact decide_eq_true (expired now timely)
    · right
      intro record expired records
      exact stale ⟨record, expired, records⟩
  · change Database.keyRecords { (moment.later db).pending other with idempotencyKeys := _ } _ _ = _
    rw [begun.pending]
    unfold Database.keyRecords
    rw [List.filter_filter, List.filter_filter]
    refine List.filter_congr fun record _ => Bool.and_comm _ _

theorem Purging.filtered {now : Time} (timely : clock now)
    (purging : Purging clock applicationId key now moment) :
    moment.view.keyRecords applicationId key = moment.committed.keyRecords applicationId key ∨
      (Row.idempotencyKey applicationId key ∈ moment.locks ∧
        Vacant clock (moment.committed.keyRecords applicationId key) ∧
        moment.view.keyRecords applicationId key = []) := by
  have view := purging.records moment.committed
  change moment.view.keyRecords applicationId key = _ at view
  rcases purging.decided with (none_ | ⟨record, stale, one⟩) | ⟨record, bound, one⟩
  · left
    rw [view, none_]
    rfl
  · right
    refine ⟨purging.held.resolve_right fun kept => kept record stale one, .inr ⟨record, stale, one⟩, ?_⟩
    rw [view, one]
    simp [stale now timely]
  · left
    rw [view, one]
    simp [bound.2 now timely]

/-- What the others of a party rely on. -/
theorem KeyParty.guarantees (party : KeyParty) (timely : ∀ now, party.time? = some now → clock now) :
    State.Guarantees (keyRely clock applicationId key)
      (party.Post clock fingerprint applicationId key) := by
  intro value moment post locks apart
  cases party with
  | create request =>
      obtain ⟨answer, -, created⟩ := post
      refine ⟨fun held => absurd held (apart _ created.held), ?_⟩
      cases fresh : answer.replayed with
      | true => exact .inl (by rw [Moment.view, created.replayed fresh])
      | false =>
          obtain ⟨record, bound, records, -⟩ := created.record
          exact .inr ⟨created.taken fresh, .inr ⟨record, bound, records _ rfl⟩⟩
  | purge now =>
      obtain ⟨-, purging⟩ := post
      rcases purging.filtered (timely now rfl) with same | ⟨held, vacant, none_⟩
      · exact ⟨fun _ => same, .inl same⟩
      · exact ⟨fun locked => absurd locked (apart _ held), .inr ⟨vacant, .inl none_⟩⟩
  | other program =>
      obtain ⟨-, leaves⟩ := post
      have same : moment.view.keyRecords applicationId key =
          moment.committed.keyRecords applicationId key := leaves _
      exact ⟨fun _ => same, .inl same⟩

/-- The errors of a party. -/
def KeyParty.outline (clock : Time → Prop) (fingerprint : Json → String) (applicationId : Uuid)
    (key : String) : KeyParty → Outline store
  | .create request => createOutline clock applicationId key (fingerprint request.payload)
  | _ => {}

/-- Each party on its own. -/
theorem KeyParty.safe (environment : Environment) {application : Application} (some_ : key ≠ "")
    {party : KeyParty} (fits : party.Fits application.id key)
    (timely : ∀ now, party.time? = some now → clock now)
    (lasting : ∀ request, party = .create request → ∀ now, clock now →
      now < request.begun + IdempotencyKey.ttl)
    {db : Database} (decided : Vacant clock (db.keyRecords application.id key) ∨
      Taken clock (db.keyRecords application.id key)) :
    Safe (keyRely clock application.id key) (party.outline clock fingerprint application.id key)
      (party.Post clock fingerprint application.id key)
      (party.program environment fingerprint application) ⟨[], id, db⟩ := by
  have asking : Asking clock application.id key ⟨[], id, db⟩ := ⟨fun _ => rfl, decided⟩
  cases party with
  | create request =>
      refine (createDomain_safe environment fits some_ (timely _ rfl) (lasting request rfl)
        asking).bind fun answer moment created => ?_
      exact Safe.of_pure fun db allows => ⟨answer, rfl, created.later allows⟩
  | purge now =>
      refine (purgeExpiredKeys_safe (timely now rfl) asking).bind fun _ moment purging => ?_
      exact Safe.of_pure fun db allows => ⟨rfl, purging.later (timely now rfl) allows⟩
  | other program =>
      have leaves : Safe (keyRely clock application.id key) {}
          (fun _ moment => ∀ db : Database, (moment.pending db).keyRecords application.id key =
            db.keyRecords application.id key) program ⟨[], id, db⟩ :=
        Program.Within.safe fits (fun moment => ∀ db : Database,
          (moment.pending db).keyRecords application.id key = db.keyRecords application.id key)
          (fun _ _ leaves _ => leaves) (fun moment rows made leaves keeps db =>
            (keeps (moment.pending db)).trans (leaves db)) (fun _ _ => trivial) (fun _ _ _ _ => trivial)
          (fun _ _ leaves => leaves) fun _ => rfl
      refine leaves.bind fun _ moment leaves => ?_
      exact Safe.of_pure fun db allows => ⟨rfl, leaves⟩

/-- What a party that is no request makes of the records when it commits. -/
theorem KeyParty.Post.keyRecords {party : KeyParty} {value : Option CreateAnswer}
    (timely : ∀ now, party.time? = some now → clock now) (other : ∀ request, party ≠ .create request)
    (post : party.Post clock fingerprint applicationId key value moment) :
    moment.view.keyRecords applicationId key = moment.committed.keyRecords applicationId key ∨
      moment.view.keyRecords applicationId key = [] := by
  cases party with
  | create request => exact absurd rfl (other request)
  | purge now =>
      rcases post.2.filtered (timely now rfl) with same | ⟨-, -, none_⟩
      · exact .inl same
      · exact .inr none_
  | other program => exact .inl (post.2 _)

section Together

variable [DecidableEq ι] {environment : Environment} {application : Application} {db : Database}
  {state : State store ι (Option CreateAnswer)}

/-- As long as no request has committed, the key has the records it had, or they have been purged. -/
theorem keyRecords_of_reaches
    (safe : ∀ index, State.SafeAt (keyRely clock applicationId key)
      ((parties index).outline clock fingerprint applicationId key)
      ((parties index).Post clock fingerprint applicationId key)
      (State.start db fun index => (parties index).program environment fingerprint application) index)
    (timely : ∀ index now, (parties index).time? = some now → clock now)
    (reaches : ReflTransGen State.Step
      (State.start db fun index => (parties index).program environment fingerprint application) state) :
    (∃ index request value, parties index = .create request ∧ state.Ended index value) ∨
      state.committed.keyRecords applicationId key = db.keyRecords applicationId key ∨
        state.committed.keyRecords applicationId key = [] := by
  induction reaches with
  | refl => exact .inr (.inl rfl)
  | @tail state next reaches step ih =>
      rcases ih with ⟨index, request, value, is_, ended⟩ | records
      · exact .inl ⟨index, request, value, is_, ended.step step⟩
      · obtain ⟨moved, ⟨enabled, rfl⟩ | ⟨-, rfl⟩⟩ := step
        · cases commits : (state.session moved).commits with
          | false =>
              rw [State.advance_committed_of_not_commits state moved commits]
              exact .inr records
          | true =>
              obtain ⟨value, shape, post⟩ := (State.safeAt_of_reaches
                (fun index => (parties index).guarantees (timely index)) (State.start_exclusive _ _) safe
                reaches moved).at_commit enabled.1 commits
              by_cases creates : ∃ request, parties moved = .create request
              · obtain ⟨request, is_⟩ := creates
                exact .inl ⟨moved, request, value, is_, State.ended_advance shape⟩
              · right
                rw [State.advance_committed_of_commits state moved commits]
                have left := KeyParty.Post.keyRecords (timely moved)
                  (fun request is_ => creates ⟨request, is_⟩) post
                change (state.view moved).keyRecords applicationId key =
                  state.committed.keyRecords applicationId key ∨
                    (state.view moved).keyRecords applicationId key = [] at left
                rcases left with same | none_
                · rw [same]
                  exact records
                · exact .inr none_
        · exact .inr records

end Together

end Parties

/-- Of any requests that are sent with one key of an application before it expires, beside purges and
transactions that leave the records of the key alone, statement by statement in any order: every answer
names the domain that the record of the key names, and was asked for with its body; at most one of them
has created a domain, and the others change nothing; no request finds the key in progress, and it is
told that the key was used only where the body is another one; and while none of them has committed,
the key is as it was. -/
theorem creates_idempotent {ι : Type} [DecidableEq ι] (environment : Environment)
    (fingerprint : Json → String) (application : Application) {key : String} (some_ : key ≠ "")
    (parties : ι → KeyParty) (fits : ∀ index, (parties index).Fits application.id key)
    (lasting : ∀ index request, parties index = .create request → ∀ now, clocks parties now →
      now < request.begun + IdempotencyKey.ttl)
    {db : Database} (decided : Vacant (clocks parties) (db.keyRecords application.id key) ∨
      Taken (clocks parties) (db.keyRecords application.id key))
    {state : State store ι (Option CreateAnswer)}
    (reaches : ReflTransGen State.Step
      (State.start db fun index => (parties index).program environment fingerprint application) state) :
    (∀ index request answer, parties index = .create request → state.Ended index (some answer) →
      ∃ record : IdempotencyKey, state.committed.keyRecords application.id key = [record] ∧
        record.domainId = some answer.domain.id ∧
        record.requestHash = fingerprint request.payload) ∧
    (∀ first answer second answer', state.Ended first (some answer) → answer.replayed = false →
      state.Ended second (some answer') → answer'.replayed = false → first = second) ∧
    (∀ index answer, (state.session index).status = .running →
      (state.session index).program = .pure (some answer) → answer.replayed = true →
        state.view index = state.committed) ∧
    (∀ index request error, parties index = .create request → state.Raises index error →
      (∀ message, error ≠ .idempotencyInProgress message) ∧
        ∀ message, error = .idempotencyKeyReused message → ∃ record : IdempotencyKey,
          state.committed.keyRecords application.id key = [record] ∧
            record.requestHash ≠ fingerprint request.payload) ∧
    ((∃ index request value, parties index = .create request ∧ state.Ended index value) ∨
      state.committed.keyRecords application.id key = db.keyRecords application.id key ∨
        state.committed.keyRecords application.id key = []) := by
  have timely : ∀ index now, (parties index).time? = some now → clocks parties now :=
    fun index now is_ => ⟨index, is_⟩
  have safe : ∀ index, State.SafeAt (keyRely (clocks parties) application.id key)
      ((parties index).outline (clocks parties) fingerprint application.id key)
      ((parties index).Post (clocks parties) fingerprint application.id key)
      (State.start db fun index => (parties index).program environment fingerprint application) index :=
    fun index => State.start_safeAt (KeyParty.safe environment some_ (fits index) (timely index)
      (lasting index) decided)
  have guarantees : ∀ index, State.Guarantees (keyRely (clocks parties) application.id key)
      ((parties index).Post (clocks parties) fingerprint application.id key) :=
    fun index => (parties index).guarantees (timely index)
  have exclusive := State.start_exclusive db fun index =>
    (parties index).program environment fingerprint application
  have later := State.safeAt_of_reaches guarantees exclusive safe reaches
  have none_ : ∀ index value, ¬ (State.start db fun index =>
      (parties index).program environment fingerprint application).Ended index value :=
    State.ended_start db _
  have created : ∀ {index value moment answer}, (parties index).Post (clocks parties) fingerprint
      application.id key value moment → value = some answer → ∃ request,
        parties index = .create request ∧ Created (clocks parties) application.id key
          (fingerprint request.payload) answer moment := by
    intro index value moment answer post is_
    cases shape : parties index with
    | create request =>
        rw [shape] at post
        obtain ⟨other, same, created⟩ := post
        cases is_.symm.trans same
        exact ⟨request, rfl, created⟩
    | purge now =>
        rw [shape] at post
        cases is_.symm.trans post.1
    | other program =>
        rw [shape] at post
        cases is_.symm.trans post.1
  refine ⟨?_, ?_, ?_, ?_, keyRecords_of_reaches parties safe timely reaches⟩
  · intro index request answer is_ ended
    obtain ⟨record, -, records, names⟩ := State.ended_of_reaches guarantees exclusive safe none_
      (fun index value db => ∀ request answer, parties index = .create request → value = some answer →
        ∃ record : IdempotencyKey, record.Bound (clocks parties) ∧
          db.keyRecords application.id key = [record] ∧ record.domainId = some answer.domain.id ∧
          record.requestHash = fingerprint request.payload)
      (fun index value moment post request answer is_ some_ => by
        obtain ⟨request', is', created⟩ := created post some_
        cases is_.symm.trans is'
        obtain ⟨record, bound, records, names⟩ := created.record
        exact ⟨record, bound, records _ rfl, names⟩)
      (fun index value before after allows holds request answer is_ some_ => by
        obtain ⟨record, bound, records, names⟩ := holds request answer is_ some_
        have begun : clocks parties request.begun := timely index _ (by rw [is_]; rfl)
        have same := allows.2.taken begun ⟨record, bound, records⟩
        exact ⟨record, bound, same.trans records, names⟩) reaches index _ ended request answer is_ rfl
    exact ⟨record, records, names⟩
  · intro first answer second answer' ended fresh ended' fresh'
    refine State.ended_unique_of_reaches guarantees exclusive safe none_
      (fun _ value => ∃ answer : CreateAnswer, value = some answer ∧ answer.replayed = false)
      (fun db => (∃ now, clocks parties now) ∧
        Taken (clocks parties) (db.keyRecords application.id key)) ?_ ?_ ?_ reaches first _ second _
      ended ⟨answer, rfl, fresh⟩ ended' ⟨answer', rfl, fresh'⟩
    · intro index value moment post taking taken
      obtain ⟨answer, is_, fresh⟩ := taking
      obtain ⟨request, -, created⟩ := created post is_
      obtain ⟨⟨now, begun⟩, taken⟩ := taken
      exact (created.taken fresh).not_taken begun taken
    · intro index value moment post taking
      obtain ⟨answer, is_, -⟩ := taking
      obtain ⟨request, shape, created⟩ := created post is_
      obtain ⟨record, bound, records, -⟩ := created.record
      exact ⟨⟨request.begun, timely index _ (by rw [shape]; rfl)⟩, record, bound, records _ rfl⟩
    · intro before after allows taken
      obtain ⟨⟨now, begun⟩, taken⟩ := taken
      have same := allows.2.taken begun taken
      exact ⟨⟨now, begun⟩, same.symm ▸ taken⟩
  · intro index answer running shape replayed
    have commits : (state.session index).commits = true := by
      rw [Session.commits, shape]
    obtain ⟨value, shape', post⟩ := (later index).at_commit running commits
    cases shape.symm.trans shape'
    obtain ⟨request, -, created⟩ := created post rfl
    exact created.replayed replayed _
  · intro index request error is_ raises
    have raised := (later index).raises raises
    rw [is_] at raised
    refine ⟨raised.1, fun message reused => ?_⟩
    obtain ⟨record, -, records, other⟩ := raised.2 message reused
    exact ⟨record, records, other⟩

/-- A request, and its retry under the same key. -/
def retried (retry : Bool) : KeyParty :=
  .create
    { hostname := "forms.example.com"
      reference := "workspace"
      idempotencyKey := some "k-1"
      fresh := if retry then ⟨4, 5, "other"⟩ else ⟨2, 3, "token"⟩
      begun := 0
      registered := 0 }

def retriedStart : State store Bool (Option CreateAnswer) :=
  State.start ({ applications := [sampleApplication] } : Database) fun retry =>
    (retried retry).program sampleEnvironment (fun _ => "hash") sampleApplication

/-- The retry after the request has committed. -/
def retriedLater : State store Bool (Option CreateAnswer) :=
  retriedStart.follow (List.replicate 18 false ++ List.replicate 6 true)

/-- The value of a transaction that has come to its end. -/
def endValue? {α : Type} : Sql α → Option α
  | .pure value => some value
  | _ => none

theorem endValue?_eq_some {α : Type} {program : Sql α} {value : α}
    (ends : endValue? program = some value) : program = .pure value := by
  cases program with
  | pure other =>
      cases ends
      rfl
  | raise | select | write | emit => cases ends

theorem creates_idempotent_retried :
    (∃ answer, retriedLater.Ended true (some answer) ∧ answer.replayed = true ∧
      ∃ record : IdempotencyKey, retriedLater.committed.keyRecords 1 "k-1" = [record] ∧
        record.domainId = some answer.domain.id ∧ record.requestHash = "hash") ∧
      retriedLater.committed.domains.length = 1 := by
  refine ⟨?_, by decide +kernel⟩
  have reaches : ReflTransGen State.Step retriedStart retriedLater :=
    State.GuardedStep.reaches (State.CanFollow.guarded
      (show State.CanFollow (fun _ _ => True) retriedStart _ by decide +kernel))
  have replays : (((endValue? (retriedLater.session true).program).bind id).map
      CreateAnswer.replayed) = some true := by
    decide +kernel
  obtain ⟨answer, ends, replayed⟩ := Option.map_eq_some_iff.mp replays
  obtain ⟨value, ends, same⟩ := Option.bind_eq_some_iff.mp ends
  cases same
  have ended : retriedLater.Ended true (some answer) :=
    ⟨by decide +kernel, endValue?_eq_some ends⟩
  refine ⟨answer, ended, replayed, ?_⟩
  exact (creates_idempotent sampleEnvironment (fun _ => "hash") sampleApplication
    (by decide) retried (fun _ => rfl) (by
      rintro index request shape now ⟨other, timely⟩
      cases shape
      cases timely
      exact (by decide : (0 : Time) < 0 + IdempotencyKey.ttl)) (.inl (.inl rfl)) reaches).1 true _ answer rfl ended

end CustomDomain
