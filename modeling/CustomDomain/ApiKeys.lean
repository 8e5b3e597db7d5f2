import CustomDomain.ApplicationService
import CustomDomain.GuardedRuns

/-!
# Keys of the API

The credentials of `app/services/applications.py`, and `current_application` of `app/v1/deps.py`,
which every request to the API passes.  The keys that operators issue, rotate, revoke and delete are
followed over whole runs, with transactions in between that may revoke or remove keys: a request is
let through only with a secret that was handed out, while nothing has taken it back.
-/

namespace CustomDomain.ApiKeys

open PythonText

/-! ## The functions -/

inductive KeyError where
  | invalidCredential (message : String)
  | credentialNotFound
  | credentialInUse (message : String)
  | integrityError
  | unauthorized
  | credentialReadOnly (scope : CredentialScope) (method : String)
  deriving DecidableEq

def secretPrefix : String := "cd_"

/-- `ApiCredential.is_usable`. -/
def isUsable (credential : ApiCredential) (now : Time) : Bool :=
  credential.revokedAt.isNone && credential.expiresAt.all fun expiresAt => decide (now < expiresAt)

/-- `_credential_scope`. -/
def credentialScope (value : String) : Option CredentialScope :=
  let name := lower (strip value)
  if name = "full" then some .full
  else if name = "read" then some .read
  else none

/-- What is drawn for a new key: its identifier, and the secret without its prefix. -/
structure Drawn where
  id : Uuid
  token : String

def Drawn.secret (drawn : Drawn) : String := secretPrefix ++ drawn.token

section Functions

-- `hash` is SHA-256 in hexadecimal.
variable (hash : String → String)

/-- The row of a new key. -/
def newKey (application : Uuid) (scope : CredentialScope) (expiresAt : Option Time) (drawn : Drawn) :
    ApiCredential where
  id := drawn.id
  applicationId := application
  keyHash := hash drawn.secret
  scope := scope
  expiresAt := expiresAt

/-- `INSERT INTO api_credentials ...`: the application exists, and identifier and hash are unique. -/
def insertKey (credential : ApiCredential) (db : Database) : Except KeyError Database :=
  if (db.application? credential.applicationId).isSome &&
      db.credentials.all fun other => other.id ≠ credential.id && other.keyHash ≠ credential.keyHash then
    .ok { db with credentials := db.credentials ++ [credential] }
  else .error .integrityError

/-- `UPDATE api_credentials ...`. -/
def updateKey (id : Uuid) (change : ApiCredential → ApiCredential) (db : Database) : Database :=
  { db with
    credentials := db.credentials.map fun stored => if stored.id = id then change stored else stored }

/-- The key with the identifier, if it is the application's. -/
def ownKey (application id : Uuid) (db : Database) : Option ApiCredential :=
  db.credentials.find? fun credential => credential.id = id && credential.applicationId = application

/-- `issue_credential`. -/
def issueCredential (application : Uuid) (label scope : String) (expiresAt : Option Time)
    (drawn : Drawn) (db : Database) : Except KeyError (ApiCredential × Database) :=
  if strip label = "" then .error (.invalidCredential "Label is required")
  else
    match credentialScope scope with
    | none => .error (.invalidCredential "Scope must be full or read")
    | some scope =>
        let credential := newKey hash application scope expiresAt drawn
        (insertKey credential db).map fun db => (credential, db)

/-- `authenticate_credential`; the error that is raised has no message of its own. -/
def authenticateCredential (secret : Option String) (now : Time) (db : Database) :
    Except KeyError (ApiCredential × Application × Database) :=
  let refused := .error (.invalidCredential "invalid_credential")
  match secret with
  | none => refused
  | some secret =>
      if startsWith secretPrefix secret = false then refused
      else
        match db.credentials.find? fun credential => credential.keyHash = hash secret with
        | none => refused
        | some credential =>
            if isUsable credential now = false then refused
            else
              match db.application? credential.applicationId with
              | none => refused
              | some application =>
                  if application.status ≠ .active then refused
                  else
                    .ok (credential, application,
                      updateKey credential.id (fun stored => { stored with lastUsedAt := some now }) db)

/-- `revoke_credential`. -/
def revokeCredential (application id : Uuid) (now : Time) (db : Database) : Except KeyError Database :=
  match ownKey application id db with
  | none => .error .credentialNotFound
  | some credential =>
      if credential.revokedAt.isNone then
        .ok (updateKey id (fun stored => { stored with revokedAt := some now }) db)
      else .ok db

/-- `delete_credential`. -/
def deleteCredential (application id : Uuid) (now : Time) (db : Database) : Except KeyError Database :=
  match ownKey application id db with
  | none => .error .credentialNotFound
  | some credential =>
      if isUsable credential now then
        .error (.credentialInUse "Revoke the credential before deleting it")
      else .ok { db with credentials := db.credentials.filter fun stored => stored.id ≠ id }

/-- `rotate_credential`: the new key, and the rows.  The label of the old key is not blank. -/
def rotateCredential (application id : Uuid) (label : Option String) (grace : Int) (now : Time)
    (drawn : Drawn) (db : Database) : Except KeyError (ApiCredential × Database) :=
  match ownKey application id db with
  | none => .error .credentialNotFound
  | some old =>
      if (label.filter (· ≠ "")).any (strip · = "") then .error (.invalidCredential "Label is required")
      else
        let credential := newKey hash application old.scope none drawn
        let cutoff := now + grace
        (insertKey credential db).map fun db =>
          (credential,
            if old.revokedAt.isNone && old.expiresAt.all fun expiresAt => decide (cutoff < expiresAt) then
              updateKey id (fun stored => { stored with expiresAt := some cutoff }) db
            else db)

/-- `READ_ONLY_METHODS`. -/
def readOnlyMethods : List String := ["GET", "HEAD"]

/-- `current_application`, once the limiters let the request through: its answer, and the rows.  The
use of the key is committed whatever comes of its scope. -/
def currentApplication (method : String) (authorization : Option (String × String)) (now : Time)
    (db : Database) : Except KeyError Application × Database :=
  match authorization with
  | none => (.error .unauthorized, db)
  | some (scheme, secret) =>
      if lower scheme ≠ "bearer" then (.error .unauthorized, db)
      else
        match authenticateCredential hash (some secret) now db with
        | .error _ => (.error .unauthorized, db)
        | .ok (credential, application, after) =>
            if credential.scope ≠ .full ∧ method ∉ readOnlyMethods then
              (.error (.credentialReadOnly credential.scope method), after)
            else (.ok application, after)

end Functions

/-! ## Keys lose what they may do -/

/-- The key may do no more than before. -/
structure Shrinks (before after : ApiCredential) : Prop where
  id : after.id = before.id
  applicationId : after.applicationId = before.applicationId
  keyHash : after.keyHash = before.keyHash
  scope : after.scope = before.scope
  revoked : before.revokedAt.isSome = true → after.revokedAt.isSome = true
  expires : ∀ expiresAt ∈ before.expiresAt, ∃ sooner ∈ after.expiresAt, sooner ≤ expiresAt

theorem Shrinks.refl (credential : ApiCredential) : Shrinks credential credential :=
  ⟨rfl, rfl, rfl, rfl, fun revoked => revoked, fun expiresAt expires => ⟨expiresAt, expires, le_refl _⟩⟩

/-- No key is new, and none may do more. -/
structure Withdraws (before after : Database) : Prop where
  ids : (after.credentials.map (·.id)).Sublist (before.credentials.map (·.id))
  rows : ∀ credential ∈ after.credentials, ∃ old ∈ before.credentials, Shrinks old credential

theorem Withdraws.refl (db : Database) : Withdraws db db :=
  ⟨List.Sublist.refl _, fun credential stored => ⟨credential, stored, .refl credential⟩⟩

theorem updateKey_withdraws {db : Database} {id : Uuid} {change : ApiCredential → ApiCredential}
    (shrinks : ∀ credential ∈ db.credentials, credential.id = id → Shrinks credential (change credential)) :
    Withdraws db (updateKey id change db) := by
  have each : ∀ credential ∈ db.credentials,
      Shrinks credential (if credential.id = id then change credential else credential) := by
    intro credential stored
    split
    next here => exact shrinks credential stored here
    next => exact .refl credential
  constructor
  · rw [updateKey, List.map_map]
    have same : db.credentials.map ((fun credential => credential.id) ∘ fun stored : ApiCredential =>
        if stored.id = id then change stored else stored) = db.credentials.map (·.id) :=
      List.map_congr_left fun credential stored => (each credential stored).id
    rw [same]
  · intro credential stored
    obtain ⟨old, present, rfl⟩ := List.mem_map.mp stored
    exact ⟨old, present, each old present⟩

/-- A row with the identifier is a changed one. -/
theorem mem_updateKey {db : Database} {id : Uuid} {change : ApiCredential → ApiCredential}
    {row : ApiCredential} (stored : row ∈ (updateKey id change db).credentials) (same : row.id = id) :
    ∃ before ∈ db.credentials, row = change before := by
  obtain ⟨before, present, rfl⟩ := List.mem_map.mp stored
  split
  next => exact ⟨before, present, rfl⟩
  next elsewhere =>
    rw [if_neg elsewhere] at same
    exact absurd same elsewhere

theorem filter_withdraws (db : Database) (keeps : ApiCredential → Bool) :
    Withdraws db { db with credentials := db.credentials.filter keeps } :=
  ⟨List.filter_sublist.map _, fun credential stored =>
    ⟨credential, List.mem_of_mem_filter stored, .refl credential⟩⟩

/-! ## Runs -/

/-- A key as it was handed out. -/
structure Issue where
  id : Uuid
  application : Uuid
  scope : CredentialScope
  expiresAt : Option Time
  secret : String
  replaces : Option Uuid
  deriving DecidableEq

/-- What operators have done to keys. -/
inductive Event where
  | issued (key : Issue)
  | revoked (id : Uuid)
  | deleted (id : Uuid)
  | rotated (id : Uuid) (cutoff : Time)

def Event.id : Event → Uuid
  | .issued key => key.id
  | .revoked id | .deleted id | .rotated id _ => id

/-- The rows, the time, and what was done so far. -/
structure State where
  db : Database
  clock : Time
  trail : List Event := []

inductive Action where
  | tick (at_ : Time)
  | issue (application : Uuid) (label scope : String) (expiresAt : Option Time) (drawn : Drawn)
  | revoke (application id : Uuid)
  | delete (application id : Uuid)
  | rotate (application id : Uuid) (label : Option String) (grace : Int) (drawn : Drawn)
  | request (method : String) (authorization : Option (String × String))
  | other (after : Database) (removes revokes : ApiCredential → Bool)

/-- Identifier and secret are new, as random ones are. -/
def State.unseen (state : State) (drawn : Drawn) : Bool :=
  state.trail.all fun
    | .issued key => decide (key.id ≠ drawn.id ∧ key.secret ≠ drawn.secret)
    | _ => true

/-- A function that raises leaves everything as it was. -/
def State.commit (state : State) (result : Except KeyError Database) (events : List Event) : State :=
  match result with
  | .error _ => state
  | .ok db => { state with db := db, trail := state.trail ++ events }

def Issue.of (credential : ApiCredential) (drawn : Drawn) (replaces : Option Uuid) : Issue where
  id := credential.id
  application := credential.applicationId
  scope := credential.scope
  expiresAt := credential.expiresAt
  secret := drawn.secret
  replaces := replaces

/-- The rows of another transaction, which may remove and revoke keys. -/
def withdrawn (after db : Database) (removes revokes : ApiCredential → Bool) (now : Time) : Database :=
  { after with
    credentials := (db.credentials.filter fun credential => !removes credential).map fun credential =>
      if revokes credential then { credential with revokedAt := some now } else credential }

def State.perform (hash : String → String) (state : State) : Action → Option State
  | .tick at_ => if state.clock ≤ at_ then some { state with clock := at_ } else none
  | .issue application label scope expiresAt drawn =>
      if state.unseen drawn then
        match issueCredential hash application label scope expiresAt drawn state.db with
        | .error _ => some state
        | .ok (credential, db) =>
            some { state with db := db, trail := state.trail ++ [.issued (.of credential drawn none)] }
      else none
  | .revoke application id =>
      some (state.commit (revokeCredential application id state.clock state.db) [.revoked id])
  | .delete application id =>
      some (state.commit (deleteCredential application id state.clock state.db) [.deleted id])
  | .rotate application id label grace drawn =>
      if state.unseen drawn then
        match rotateCredential hash application id label grace state.clock drawn state.db with
        | .error _ => some state
        | .ok (credential, db) =>
            some { state with
              db := db
              trail := state.trail ++
                [.issued (.of credential drawn (some id)), .rotated id (state.clock + grace)] }
      else none
  | .request method authorization =>
      some { state with db := (currentApplication hash method authorization state.clock state.db).2 }
  | .other after removes revokes =>
      some { state with db := withdrawn after state.db removes revokes state.clock }

/-! ## What the runs keep -/

/-- What the event has made of the keys. -/
def Event.Holds (rows : List ApiCredential) : Event → Prop
  | .issued _ => True
  | .revoked id => ∀ credential ∈ rows, credential.id = id → credential.revokedAt.isSome = true
  | .deleted id => ∀ credential ∈ rows, credential.id ≠ id
  | .rotated id cutoff => ∀ credential ∈ rows, credential.id = id →
      credential.revokedAt.isSome = true ∨ ∃ expiresAt ∈ credential.expiresAt, expiresAt ≤ cutoff

/-- The row is of the key, and may do no more than the key was handed out for. -/
structure Under (hash : String → String) (key : Issue) (credential : ApiCredential) : Prop where
  id : credential.id = key.id
  application : credential.applicationId = key.application
  scope : credential.scope = key.scope
  keyHash : credential.keyHash = hash key.secret
  expires : ∀ expiresAt ∈ key.expiresAt, ∃ sooner ∈ credential.expiresAt, sooner ≤ expiresAt

structure Kept (hash : String → String) (state : State) : Prop where
  keyed : (state.db.credentials.map (·.id)).Nodup
  issued : ∀ credential ∈ state.db.credentials, ∃ key, .issued key ∈ state.trail ∧
    Under hash key credential
  told : ∀ event ∈ state.trail, event.Holds state.db.credentials
  known : ∀ event ∈ state.trail, ∃ key, .issued key ∈ state.trail ∧ key.id = event.id
  once : ∀ key other, .issued key ∈ state.trail → .issued other ∈ state.trail →
    key.secret = other.secret → key = other
  lineage : ∀ key, .issued key ∈ state.trail → ∀ old ∈ key.replaces, ∃ former,
    .issued former ∈ state.trail ∧ former.id = old ∧ former.application = key.application ∧
      former.scope = key.scope

section Events

variable {event : Event} {before after : Database} {hash : String → String} {key : Issue}
  {credential next : ApiCredential}

theorem Event.Holds.withdraws (holds : event.Holds before.credentials) (withdraws : Withdraws before after) :
    event.Holds after.credentials := by
  cases event with
  | issued key => trivial
  | revoked id =>
      intro credential stored same
      obtain ⟨old, present, shrinks⟩ := withdraws.rows credential stored
      exact shrinks.revoked (holds old present (shrinks.id.symm.trans same))
  | deleted id =>
      intro credential stored same
      obtain ⟨old, present, shrinks⟩ := withdraws.rows credential stored
      exact holds old present (shrinks.id.symm.trans same)
  | rotated id cutoff =>
      intro credential stored same
      obtain ⟨old, present, shrinks⟩ := withdraws.rows credential stored
      rcases holds old present (shrinks.id.symm.trans same) with revoked | ⟨expiresAt, expires, soon⟩
      · exact .inl (shrinks.revoked revoked)
      · obtain ⟨sooner, expires, le⟩ := shrinks.expires expiresAt expires
        exact .inr ⟨sooner, expires, le.trans soon⟩

/-- A key that the event is not about changes nothing. -/
theorem Event.Holds.append {rows : List ApiCredential} (holds : event.Holds rows)
    (other : credential.id ≠ event.id) : event.Holds (rows ++ [credential]) := by
  have only : ∀ {row : ApiCredential}, row ∈ rows ++ [credential] → row.id = event.id → row ∈ rows := by
    intro row stored same
    rcases List.mem_append.mp stored with old | new
    · exact old
    · exact absurd ((congrArg (·.id) (List.mem_singleton.mp new)).symm.trans same) other
  cases event with
  | issued key => trivial
  | revoked id => exact fun row stored same => holds row (only stored same) same
  | deleted id => exact fun row stored same => holds row (only stored same) same
  | rotated id cutoff => exact fun row stored same => holds row (only stored same) same

theorem Under.shrinks (under : Under hash key credential) (shrinks : Shrinks credential next) :
    Under hash key next where
  id := shrinks.id.trans under.id
  application := shrinks.applicationId.trans under.application
  scope := shrinks.scope.trans under.scope
  keyHash := shrinks.keyHash.trans under.keyHash
  expires := by
    intro expiresAt expires
    obtain ⟨sooner, expires, soon⟩ := under.expires expiresAt expires
    obtain ⟨soonest, expires, le⟩ := shrinks.expires sooner expires
    exact ⟨soonest, expires, le.trans soon⟩

end Events

namespace Kept

variable {hash : String → String} {state : State} (kept : Kept hash state)

include kept

/-- A transaction that brings no key back. -/
theorem withdraws {db : Database} (withdraws : Withdraws state.db db) :
    Kept hash { state with db := db } where
  keyed := kept.keyed.sublist withdraws.ids
  issued := by
    intro credential stored
    obtain ⟨old, present, shrinks⟩ := withdraws.rows credential stored
    obtain ⟨key, handed, under⟩ := kept.issued old present
    exact ⟨key, handed, under.shrinks shrinks⟩
  told event member := (kept.told event member).withdraws withdraws
  known := kept.known
  once := kept.once
  lineage := kept.lineage

/-- What was done to a key is told. -/
theorem tells {event : Event} (holds : event.Holds state.db.credentials)
    (known : ∃ key, .issued key ∈ state.trail ∧ key.id = event.id) (about : ∀ key, event ≠ .issued key) :
    Kept hash { state with trail := state.trail ++ [event] } := by
  have handed : ∀ {key : Issue}, .issued key ∈ state.trail ++ [event] → .issued key ∈ state.trail := by
    intro key member
    rcases List.mem_append.mp member with old | new
    · exact old
    · exact absurd (List.mem_singleton.mp new).symm (about key)
  have later : ∀ {other : Event}, other ∈ state.trail → other ∈ state.trail ++ [event] :=
    fun member => List.mem_append_left _ member
  refine ⟨kept.keyed, fun credential stored => ?_, fun other member => ?_, fun other member => ?_,
    fun key other left right => kept.once key other (handed left) (handed right), fun key member old replaced => ?_⟩
  · obtain ⟨key, member, under⟩ := kept.issued credential stored
    exact ⟨key, later member, under⟩
  · rcases List.mem_append.mp member with old | new
    · exact kept.told other old
    · rw [List.mem_singleton.mp new]
      exact holds
  · rcases List.mem_append.mp member with old | new
    · obtain ⟨key, issued, same⟩ := kept.known other old
      exact ⟨key, later issued, same⟩
    · obtain ⟨key, issued, same⟩ := known
      rw [List.mem_singleton.mp new]
      exact ⟨key, later issued, same⟩
  · obtain ⟨former, issued, rest⟩ := kept.lineage key (handed member) old replaced
    exact ⟨former, later issued, rest⟩

/-- A new key is handed out. -/
theorem hands {credential : ApiCredential} {drawn : Drawn} {replaces : Option Uuid} {db : Database}
    (unseen : state.unseen drawn = true) (inserted : insertKey credential state.db = .ok db)
    (id : credential.id = drawn.id) (keyHash : credential.keyHash = hash drawn.secret)
    (lineage : ∀ old ∈ replaces, ∃ former, .issued former ∈ state.trail ∧ former.id = old ∧
      former.application = credential.applicationId ∧ former.scope = credential.scope) :
    Kept hash { state with
      db := db
      trail := state.trail ++ [.issued (.of credential drawn replaces)] } := by
  have new : ∀ key, .issued key ∈ state.trail → key.id ≠ drawn.id ∧ key.secret ≠ drawn.secret := by
    intro key member
    simpa using List.all_eq_true.mp unseen (.issued key) member
  have handed : ∀ {key : Issue}, .issued key ∈ state.trail ++ [.issued (.of credential drawn replaces)] →
      .issued key ∈ state.trail ∨ key = .of credential drawn replaces := by
    intro key member
    rcases List.mem_append.mp member with old | last
    · exact .inl old
    · exact .inr (Event.issued.inj (List.mem_singleton.mp last))
  have later : ∀ {event : Event}, event ∈ state.trail →
      event ∈ state.trail ++ [.issued (.of credential drawn replaces)] :=
    fun member => List.mem_append_left _ member
  have here : .issued (.of credential drawn replaces) ∈
      state.trail ++ [Event.issued (.of credential drawn replaces)] := by simp
  unfold insertKey at inserted
  split at inserted
  next free =>
    cases inserted
    have unused := (Bool.and_eq_true_iff.mp free).2
    refine ⟨?_, fun row stored => ?_, fun event member => ?_, fun event member => ?_,
      fun key other left right same => ?_, fun key member old replaced => ?_⟩
    · rw [List.map_append]
      refine List.nodup_append.mpr ⟨kept.keyed, List.nodup_singleton _, ?_⟩
      rintro _ left _ right rfl
      obtain ⟨row, stored, same⟩ := List.mem_map.mp left
      have other := List.all_eq_true.mp unused row stored
      simp only [List.map_cons, List.map_nil, List.mem_singleton] at right
      simp [same, right] at other
    · rcases List.mem_append.mp stored with old | last
      · obtain ⟨key, member, under⟩ := kept.issued row old
        exact ⟨key, later member, under⟩
      · rw [List.mem_singleton.mp last]
        exact ⟨_, here, rfl, rfl, rfl, keyHash, fun expiresAt expires => ⟨expiresAt, expires, le_refl _⟩⟩
    · rcases List.mem_append.mp member with old | last
      · obtain ⟨key, issued, same⟩ := kept.known event old
        refine (kept.told event old).append ?_
        rw [id, ← same]
        exact (new key issued).1.symm
      · rw [List.mem_singleton.mp last]
        trivial
    · rcases List.mem_append.mp member with old | last
      · obtain ⟨key, issued, same⟩ := kept.known event old
        exact ⟨key, later issued, same⟩
      · rw [List.mem_singleton.mp last]
        exact ⟨_, here, rfl⟩
    · rcases handed left with left | rfl
      · rcases handed right with right | rfl
        · exact kept.once key other left right same
        · exact absurd same (new key left).2
      · rcases handed right with right | rfl
        · exact absurd same.symm (new other right).2
        · rfl
    · rcases handed member with member | rfl
      · obtain ⟨former, issued, rest⟩ := kept.lineage key member old replaced
        exact ⟨former, later issued, rest⟩
      · obtain ⟨former, issued, rest⟩ := lineage old replaced
        exact ⟨former, later issued, rest⟩
  next => cases inserted

end Kept

/-! ## Each function -/

section Functions

variable {hash : String → String} {application id : Uuid} {drawn : Drawn} {db rows : Database}
  {credential : ApiCredential} {now : Time}

theorem ownKey_facts (found : ownKey application id db = some credential) :
    credential ∈ db.credentials ∧ credential.id = id ∧ credential.applicationId = application := by
  have chosen := List.find?_some found
  simp only [Bool.and_eq_true, decide_eq_true_eq] at chosen
  exact ⟨List.mem_of_find?_eq_some found, chosen⟩

theorem issueCredential_ok {label scope : String} {expiresAt : Option Time}
    (issued : issueCredential hash application label scope expiresAt drawn db = .ok (credential, rows)) :
    insertKey credential db = .ok rows ∧ credential.id = drawn.id ∧
      credential.keyHash = hash drawn.secret := by
  unfold issueCredential at issued
  split at issued
  next => cases issued
  next =>
    split at issued
    next => cases issued
    next scope _ =>
      dsimp only at issued
      cases inserted : insertKey (newKey hash application scope expiresAt drawn) db with
      | error refused =>
          rw [inserted] at issued
          cases issued
      | ok after =>
          rw [inserted] at issued
          cases issued
          exact ⟨inserted, rfl, rfl⟩

theorem rotateCredential_ok {label : Option String} {grace : Int}
    (rotated : rotateCredential hash application id label grace now drawn db = .ok (credential, rows)) :
    ∃ old, ownKey application id db = some old ∧ credential = newKey hash application old.scope none drawn ∧
      ∃ middle, insertKey credential db = .ok middle ∧
        rows = if old.revokedAt.isNone &&
            old.expiresAt.all fun expiresAt => decide (now + grace < expiresAt) then
          updateKey id (fun stored => { stored with expiresAt := some (now + grace) }) middle
        else middle := by
  unfold rotateCredential at rotated
  split at rotated
  next => cases rotated
  next old found =>
    split at rotated
    next => cases rotated
    next =>
      dsimp only at rotated
      cases inserted : insertKey (newKey hash application old.scope none drawn) db with
      | error refused =>
          rw [inserted] at rotated
          cases rotated
      | ok middle =>
          rw [inserted] at rotated
          cases rotated
          exact ⟨old, found, rfl, middle, inserted, rfl⟩

theorem authenticateCredential_ok {secret : String} {owner : Application}
    (accepted : authenticateCredential hash (some secret) now db = .ok (credential, owner, rows)) :
    credential ∈ db.credentials ∧ credential.keyHash = hash secret ∧ isUsable credential now = true ∧
      db.application? credential.applicationId = some owner ∧ owner.status = .active ∧
      rows = updateKey credential.id (fun stored => { stored with lastUsedAt := some now }) db := by
  simp only [authenticateCredential] at accepted
  split at accepted
  next => cases accepted
  next =>
    split at accepted
    next => cases accepted
    next found =>
      split at accepted
      next => cases accepted
      next usable =>
        split at accepted
        next => cases accepted
        next owned =>
          split at accepted
          next => cases accepted
          next active =>
            cases accepted
            have same := List.find?_some found
            exact ⟨List.mem_of_find?_eq_some found, of_decide_eq_true same, by simpa using usable, owned,
              not_not.mp active, rfl⟩

theorem currentApplication_withdraws (hash : String → String) (method : String)
    (authorization : Option (String × String)) (now : Time) (db : Database) :
    Withdraws db (currentApplication hash method authorization now db).2 := by
  unfold currentApplication
  split
  next => exact .refl db
  next scheme secret =>
    split
    next => exact .refl db
    next =>
      split
      next => exact .refl db
      next credential owner rows accepted =>
        have used : Withdraws db rows := by
          rw [(authenticateCredential_ok accepted).2.2.2.2.2]
          exact updateKey_withdraws fun stored _ _ => ⟨rfl, rfl, rfl, rfl, fun revoked => revoked,
            fun expiresAt expires => ⟨expiresAt, expires, le_refl _⟩⟩
        split <;> exact used

theorem withdrawn_withdraws (after db : Database) (removes revokes : ApiCredential → Bool) (now : Time) :
    Withdraws db (withdrawn after db removes revokes now) := by
  have each : ∀ credential : ApiCredential, Shrinks credential
      (if revokes credential then { credential with revokedAt := some now } else credential) := by
    intro credential
    split
    next => exact ⟨rfl, rfl, rfl, rfl, fun _ => rfl, fun expiresAt expires => ⟨expiresAt, expires, le_refl _⟩⟩
    next => exact .refl credential
  constructor
  · rw [withdrawn, List.map_map]
    have same : (db.credentials.filter fun credential => !removes credential).map
        ((fun credential => credential.id) ∘ fun credential =>
          if revokes credential then { credential with revokedAt := some now } else credential) =
        (db.credentials.filter fun credential => !removes credential).map (·.id) :=
      List.map_congr_left fun credential _ => (each credential).id
    rw [same]
    exact List.filter_sublist.map _
  · intro credential stored
    obtain ⟨old, present, rfl⟩ := List.mem_map.mp stored
    exact ⟨old, List.mem_of_mem_filter present, each old⟩

/-- `purge_tombstones` removes the keys of the applications that it removes. -/
theorem purgeRows_withdrawn (now : Time) (db : Database) :
    ∃ removes, purgeRows now db = withdrawn (purgeRows now db) db removes (fun _ => false) now := by
  refine ⟨fun credential => !(purgeRows now db).applications.any fun application =>
    application.id == credential.applicationId, ?_⟩
  simp [withdrawn, purgeRows]

/-- `delete_application` revokes the keys of the application, one by one. -/
theorem revokeCredentialRow_withdrawn (credential : ApiCredential) (now : Time) (db : Database) :
    ∃ revokes, ((revokeCredentialRow credential now).run db).2 =
      withdrawn db db (fun _ => false) revokes now := by
  unfold revokeCredentialRow
  split
  next =>
    refine ⟨fun _ => false, ?_⟩
    simp only [withdrawn, Bool.not_false, List.filter_true, Bool.false_eq_true, if_false, List.map_id']
    rfl
  next =>
    refine ⟨fun stored => decide (stored.id = credential.id), ?_⟩
    simp only [withdrawn, Bool.not_false, List.filter_true, decide_eq_true_eq]
    rfl

end Functions

/-! ## Each step -/

namespace Kept

variable {hash : String → String} {state after : State} (kept : Kept hash state)

include kept

theorem known_of_mem {credential : ApiCredential} (stored : credential ∈ state.db.credentials) :
    ∃ key, .issued key ∈ state.trail ∧ key.id = credential.id := by
  obtain ⟨key, issued, under⟩ := kept.issued credential stored
  exact ⟨key, issued, under.id.symm⟩

theorem revokes {application id : Uuid} {db : Database}
    (revoked : revokeCredential application id state.clock state.db = .ok db) :
    Kept hash (state.commit (.ok db) [.revoked id]) := by
  unfold revokeCredential at revoked
  split at revoked
  next => cases revoked
  next credential found =>
    obtain ⟨stored, rfl, -⟩ := ownKey_facts found
    have known := kept.known_of_mem stored
    split at revoked
    next =>
      cases revoked
      have withdraws : Withdraws state.db (updateKey credential.id
          (fun stored => { stored with revokedAt := some state.clock }) state.db) :=
        updateKey_withdraws fun row _ _ => ⟨rfl, rfl, rfl, rfl, fun _ => rfl,
          fun expiresAt expires => ⟨expiresAt, expires, le_refl _⟩⟩
      refine (kept.withdraws withdraws).tells ?_ known fun key same => by cases same
      intro row changed same
      obtain ⟨before, -, rfl⟩ := mem_updateKey changed same
      rfl
    next already =>
      cases revoked
      refine kept.tells ?_ known fun key same => by cases same
      intro row present same
      rw [List.inj_on_of_nodup_map kept.keyed present stored same]
      simpa [Option.isSome_iff_ne_none] using already

theorem deletes {application id : Uuid} {db : Database}
    (deleted : deleteCredential application id state.clock state.db = .ok db) :
    Kept hash (state.commit (.ok db) [.deleted id]) := by
  unfold deleteCredential at deleted
  split at deleted
  next => cases deleted
  next credential found =>
    obtain ⟨stored, rfl, -⟩ := ownKey_facts found
    have known := kept.known_of_mem stored
    split at deleted
    next => cases deleted
    next =>
      cases deleted
      refine (kept.withdraws (filter_withdraws state.db _)).tells ?_ known fun key same => by cases same
      intro row present
      simpa using (List.mem_filter.mp present).2

theorem issues {application : Uuid} {label scope : String} {expiresAt : Option Time} {drawn : Drawn}
    {credential : ApiCredential} {db : Database} (unseen : state.unseen drawn = true)
    (issued : issueCredential hash application label scope expiresAt drawn state.db = .ok (credential, db)) :
    Kept hash { state with db := db, trail := state.trail ++ [.issued (.of credential drawn none)] } := by
  obtain ⟨inserted, id, keyHash⟩ := issueCredential_ok issued
  exact kept.hands unseen inserted id keyHash fun old replaced => by cases replaced

theorem rotates {application id : Uuid} {label : Option String} {grace : Int} {drawn : Drawn}
    {credential : ApiCredential} {db : Database} (unseen : state.unseen drawn = true)
    (rotated : rotateCredential hash application id label grace state.clock drawn state.db =
      .ok (credential, db)) :
    Kept hash { state with
      db := db
      trail := state.trail ++
        [.issued (.of credential drawn (some id)), .rotated id (state.clock + grace)] } := by
  obtain ⟨old, found, rfl, middle, inserted, rfl⟩ := rotateCredential_ok rotated
  obtain ⟨stored, rfl, rfl⟩ := ownKey_facts found
  have handed : Kept hash { state with
      db := middle
      trail := state.trail ++ [.issued (.of (newKey hash old.applicationId old.scope none drawn) drawn
        (some old.id))] } := by
    refine kept.hands unseen inserted rfl rfl ?_
    rintro _ ⟨⟩
    obtain ⟨former, issued, under⟩ := kept.issued old stored
    exact ⟨former, issued, under.id.symm, under.application.symm, under.scope.symm⟩
  have present : old ∈ middle.credentials := by
    unfold insertKey at inserted
    split at inserted
    next =>
      cases inserted
      exact List.mem_append_left _ stored
    next => cases inserted
  have only : ∀ row ∈ middle.credentials, row.id = old.id → row = old := fun row member same =>
    List.inj_on_of_nodup_map handed.keyed member present same
  obtain ⟨key, issued, same⟩ := kept.known_of_mem stored
  have known : ∃ key, Event.issued key ∈ state.trail ++ [.issued (.of (newKey hash old.applicationId
      old.scope none drawn) drawn (some old.id))] ∧ key.id = old.id :=
    ⟨key, List.mem_append_left _ issued, same⟩
  have trails : state.trail ++ [.issued (.of (newKey hash old.applicationId old.scope none drawn) drawn
      (some old.id)), .rotated old.id (state.clock + grace)] =
      (state.trail ++ [.issued (.of (newKey hash old.applicationId old.scope none drawn) drawn
        (some old.id))]) ++ [.rotated old.id (state.clock + grace)] := by simp
  rw [trails]
  split
  next lasting =>
    rw [Bool.and_eq_true] at lasting
    have withdraws : Withdraws middle (updateKey old.id
        (fun stored => { stored with expiresAt := some (state.clock + grace) }) middle) := by
      refine updateKey_withdraws fun row member same => ?_
      rw [only row member same]
      refine ⟨rfl, rfl, rfl, rfl, fun revoked => revoked, fun expiresAt expires => ⟨_, rfl, ?_⟩⟩
      rw [Option.mem_def.mp expires, Option.all_some, decide_eq_true_eq] at lasting
      exact le_of_lt lasting.2
    refine (handed.withdraws withdraws).tells ?_ known fun key same => by cases same
    intro row changed same
    obtain ⟨before, -, rfl⟩ := mem_updateKey changed same
    exact .inr ⟨_, rfl, le_refl _⟩
  next ending =>
    refine handed.tells ?_ known fun key same => by cases same
    intro row member same
    rw [only row member same]
    rw [Bool.and_eq_true, not_and_or] at ending
    rcases ending with revoked | expiring
    · exact .inl (by simpa [Option.isSome_iff_ne_none] using revoked)
    · right
      cases expires : old.expiresAt with
      | none => exact absurd (by rw [expires]; rfl) expiring
      | some expiresAt =>
          rw [expires, Option.all_some, decide_eq_true_eq, not_lt] at expiring
          exact ⟨expiresAt, rfl, expiring⟩

theorem step {action : Action} (performed : state.perform hash action = some after) : Kept hash after := by
  cases action with
  | tick at_ =>
      simp only [State.perform] at performed
      split at performed
      next =>
        cases performed
        exact ⟨kept.keyed, kept.issued, kept.told, kept.known, kept.once, kept.lineage⟩
      next => cases performed
  | issue application label scope expiresAt drawn =>
      simp only [State.perform] at performed
      split at performed
      next unseen =>
        split at performed
        next =>
          cases performed
          exact kept
        next credential db issued =>
          cases performed
          exact kept.issues unseen issued
      next => cases performed
  | revoke application id =>
      cases performed
      cases result : revokeCredential application id state.clock state.db with
      | error refused => exact kept
      | ok db => exact kept.revokes result
  | delete application id =>
      cases performed
      cases result : deleteCredential application id state.clock state.db with
      | error refused => exact kept
      | ok db => exact kept.deletes result
  | rotate application id label grace drawn =>
      simp only [State.perform] at performed
      split at performed
      next unseen =>
        split at performed
        next =>
          cases performed
          exact kept
        next credential db rotated =>
          cases performed
          exact kept.rotates unseen rotated
      next => cases performed
  | request method authorization =>
      cases performed
      exact kept.withdraws (currentApplication_withdraws hash method authorization state.clock state.db)
  | other rows removes revokes =>
      cases performed
      exact kept.withdraws (withdrawn_withdraws rows state.db removes revokes state.clock)

end Kept

/-! ## Requests -/

/-- What lets a request with the key through. -/
structure Rightful (state : State) (method : String) (application : Application) (key : Issue) : Prop where
  issued : .issued key ∈ state.trail
  only : ∀ other, .issued other ∈ state.trail → other.secret = key.secret → other = key
  owner : key.application = application.id
  stored : application ∈ state.db.applications
  active : application.status = .active
  scope : key.scope = .full ∨ method ∈ readOnlyMethods
  expires : ∀ expiresAt ∈ key.expiresAt, state.clock < expiresAt
  revoked : .revoked key.id ∉ state.trail
  deleted : .deleted key.id ∉ state.trail
  rotated : ∀ cutoff, .rotated key.id cutoff ∈ state.trail → state.clock < cutoff
  lineage : ∀ old ∈ key.replaces, ∃ former, .issued former ∈ state.trail ∧ former.id = old ∧
    former.application = key.application ∧ former.scope = key.scope

theorem usable_before {credential : ApiCredential} {now : Time} (usable : isUsable credential now = true) :
    credential.revokedAt = none ∧ ∀ expiresAt ∈ credential.expiresAt, now < expiresAt := by
  rw [isUsable, Bool.and_eq_true, Option.isNone_iff_eq_none] at usable
  refine ⟨usable.1, fun expiresAt expires => ?_⟩
  have lasting := usable.2
  rw [Option.mem_def.mp expires, Option.all_some, decide_eq_true_eq] at lasting
  exact lasting

theorem Kept.rightful {hash : String → String} {state : State} (kept : Kept hash state) {method : String}
    {authorization : Option (String × String)} {application : Application}
    (accepted : (currentApplication hash method authorization state.clock state.db).1 = .ok application)
    (collisionFree : ∀ scheme secret, authorization = some (scheme, secret) → ∀ key,
      .issued key ∈ state.trail → hash key.secret = hash secret → key.secret = secret) :
    ∃ scheme key, authorization = some (scheme, key.secret) ∧ Rightful state method application key := by
  unfold currentApplication at accepted
  split at accepted
  next => cases accepted
  next scheme secret =>
    split at accepted
    next => cases accepted
    next =>
      split at accepted
      next => cases accepted
      next credential owner rows authenticated =>
        split at accepted
        next => cases accepted
        next permitted =>
          cases accepted
          obtain ⟨stored, keyHash, usable, owned, active, -⟩ := authenticateCredential_ok authenticated
          obtain ⟨valid, lasting⟩ := usable_before usable
          obtain ⟨key, issued, under⟩ := kept.issued credential stored
          have presented : key.secret = secret :=
            collisionFree scheme secret rfl key issued (under.keyHash.symm.trans keyHash)
          have unrevoked : credential.revokedAt.isSome ≠ true := by simp [valid]
          have identity := List.find?_some owned
          refine ⟨scheme, key, by rw [presented], ?_⟩
          constructor
          case issued => exact issued
          case only => exact fun other handed same => kept.once other key handed issued same
          case owner => exact under.application.symm.trans (of_decide_eq_true identity).symm
          case stored => exact List.mem_of_find?_eq_some owned
          case active => exact active
          case scope =>
            rw [← under.scope]
            by_contra neither
            rw [not_or] at neither
            exact permitted neither
          case expires =>
            intro expiresAt expires
            obtain ⟨sooner, ends, le⟩ := under.expires expiresAt expires
            exact (lasting sooner ends).trans_le le
          case revoked => exact fun told => unrevoked (kept.told _ told credential stored under.id)
          case deleted => exact fun told => kept.told _ told credential stored under.id
          case rotated =>
            intro cutoff told
            rcases kept.told _ told credential stored under.id with revoked | ⟨expiresAt, expires, le⟩
            · exact absurd revoked unrevoked
            · exact (lasting expiresAt expires).trans_le le
          case lineage => exact kept.lineage key issued

/-- In every run, a request is let through only with a secret that was handed out once, for the
application it acts for, and that may do what is asked; that has not expired, was not revoked or
deleted, and whose rotation, if any, still leaves it time. -/
theorem requests_rightful {hash : String → String} {start state : State}
    (unissued : start.db.credentials = []) (untold : start.trail = [])
    (reaches : GuardedRuns.Reaches (State.perform hash) (fun _ _ _ => True) start state)
    {method : String} {authorization : Option (String × String)} {application : Application}
    (accepted : (currentApplication hash method authorization state.clock state.db).1 = .ok application)
    (collisionFree : ∀ scheme secret, authorization = some (scheme, secret) → ∀ key,
      .issued key ∈ state.trail → hash key.secret = hash secret → key.secret = secret) :
    ∃ scheme key, authorization = some (scheme, key.secret) ∧ Rightful state method application key := by
  have first : Kept hash start := by
    constructor <;> simp [unissued, untold]
  have kept : Kept hash state :=
    reaches.keeps (Kept hash) first fun performed _ kept => kept.step performed
  exact kept.rightful accepted collisionFree

/-- SHA-256 of the two secrets below. -/
def sampleHash (secret : String) : String :=
  if secret = "cd_first" then "d3e7c4f36116eb31350532f32bc193251b7013a668d1f6c3fcd5f5e04a61d72e"
  else if secret = "cd_second" then "0149aaee47bbf187a990e3edafa0b35eec5da3576e28e43428d3c238427aba99"
  else secret

def sampleStart : State where
  db := { applications := [{ id := 1, slug := "acme", name := "Acme", cnameTarget := "edge.example.net" }] }
  clock := 0

/-- A key that may only read is issued and rotated, and the old one is used within its grace. -/
def rotatingActions : List Action :=
  [.issue 1 "ci" "read" none ⟨7, "first"⟩, .rotate 1 7 none 60 ⟨8, "second"⟩, .tick 30,
    .request "GET" (some ("Bearer", "cd_first"))]

theorem requests_rightful_rotated :
    ∃ state application scheme key,
      GuardedRuns.follow (State.perform sampleHash) (fun _ _ _ => True) sampleStart rotatingActions = some state ∧
        some ("Bearer", "cd_first") = some (scheme, key.secret) ∧ Rightful state "GET" application key := by
  have ran : (GuardedRuns.follow (State.perform sampleHash) (fun _ _ _ => True) sampleStart
      rotatingActions).any (fun state =>
        (currentApplication sampleHash "GET" (some ("Bearer", "cd_first")) state.clock state.db).1.toOption.isSome &&
          state.trail.all fun
            | .issued key => decide (sampleHash key.secret = sampleHash "cd_first" → key.secret = "cd_first")
            | _ => true) = true := by
    decide +kernel
  obtain ⟨state, followed, ran⟩ := (Option.any_eq_true _ _).mp ran
  obtain ⟨answered, distinct⟩ := Bool.and_eq_true_iff.mp ran
  cases accepted : (currentApplication sampleHash "GET" (some ("Bearer", "cd_first")) state.clock state.db).1 with
  | error refused =>
      rw [accepted] at answered
      cases answered
  | ok application =>
      obtain ⟨scheme, key, presented, rightful⟩ := requests_rightful rfl rfl
        (GuardedRuns.Reaches.of_follow .start followed) accepted (by
          rintro scheme secret ⟨⟩ key issued same
          exact of_decide_eq_true (List.all_eq_true.mp distinct (.issued key) issued) same)
      exact ⟨state, application, scheme, key, followed, presented, rightful⟩

end CustomDomain.ApiKeys
