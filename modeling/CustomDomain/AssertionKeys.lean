import CustomDomain.ApplicationService
import CustomDomain.EdgeSettings
import CustomDomain.GuardedRuns
import Mathlib.Data.List.Sort

/-!
# The keys of an application for the edge's assertion

`app/services/assertion_keys.py`, and the key `edge_assert` signs with.  Which key signs is a
query over activation times: the newest of the live keys whose time has come.
-/

namespace CustomDomain

open Transaction PythonText

/-- `MAX_ACTIVATION`. -/
def maxActivation : Time := days 30

/-- `ORDER BY active_from DESC, created_at DESC`. -/
def AssertionKey.newer (first second : AssertionKey) : Prop :=
  second.activeFrom < first.activeFrom ∨
    (second.activeFrom = first.activeFrom ∧ second.createdAt ≤ first.createdAt)

instance : DecidableRel AssertionKey.newer := fun _ _ => inferInstanceAs (Decidable (_ ∨ _))

/-- `_live`: keys not revoked, newest activation first. -/
def liveKeys (view : Database) (applicationId : Uuid) : List AssertionKey :=
  (view.assertionKeys.filter fun key =>
    decide (key.applicationId = applicationId) && key.revokedAt.isNone).insertionSort
      AssertionKey.newer

/-- `signing_key`. -/
def signingKey (view : Database) (applicationId : Uuid) (now : Time) : Option AssertionKey :=
  ((view.assertionKeys.filter fun key =>
    decide (key.applicationId = applicationId) && key.revokedAt.isNone &&
      decide (key.activeFrom ≤ now)).insertionSort AssertionKey.newer).head?

/-- `UPDATE assertion_keys ...`: only `revoked_at` is ever written. -/
def flushAssertionKey (before after : AssertionKey) : Sql Unit :=
  if after = before then .pure ()
  else
    .write (fun _ => [.assertionKey before.keyId])
      (fun _ db =>
        { db with
          assertionKeys := db.assertionKeys.map fun stored =>
            if stored.keyId = before.keyId then
              { stored with revokedAt := column before.revokedAt after.revokedAt stored.revokedAt }
            else stored })
      fun view =>
        if (view.assertionKeys.any fun stored => stored.keyId == before.keyId) then .pure ()
        else .raise .staleData

/-- `INSERT INTO assertion_keys ...`; `key_id` is unique. -/
def insertAssertionKey (key : AssertionKey) : Sql Unit :=
  .write (fun _ => [.assertionKey key.keyId])
    (fun _ db => { db with assertionKeys := db.assertionKeys ++ [key] })
    fun view =>
      if (view.assertionKeys.any fun stored => stored.keyId == key.keyId) then
        .raise (.integrityError "uq_assertion_keys_key_id")
      else if (view.application? key.applicationId).isSome then .pure ()
      else .raise (.integrityError "fk_assertion_keys_application_id_applications")

/-- What an issue draws, and the clock when its row is made. -/
structure FreshKey where
  hex : String
  secret : String
  createdAt : Time

/-- The row `issue_key` inserts. -/
def newAssertionKey (application : Application) (activateIn : Time) (fresh : FreshKey)
    (now : Time) : AssertionKey where
  applicationId := application.id
  keyId := "app_" ++ fresh.hex
  secret := fresh.secret
  activeFrom := now + activateIn
  createdAt := fresh.createdAt

/-- `issue_key`; returns the key with its secret. -/
def issueKey (application : Application) (activateIn : Time) (fresh : FreshKey) (now : Time) :
    Sql (AssertionKey × String) := do
  Program.require (0 ≤ activateIn ∧ activateIn ≤ maxActivation)
    (.invalidAssertionKey "Activation must be between now and 30 days from now")
  let current ← .read fun view => signingKey view application.id now
  let live ← .read fun view => liveKeys view application.id
  -- The key signing now is kept; anything else live is replaced by the new one.
  let replaced := live.filter fun key => current.all fun signing => key.keyId ≠ signing.keyId
  Program.foldEach replaced () fun _ key =>
    flushAssertionKey key { key with revokedAt := some now }
  let key := newAssertionKey application activateIn fresh now
  insertAssertionKey key
  pure (key, fresh.secret)

/-- `revoke_key`: another application's key is not found. -/
def revokeKey (application : Application) (keyId : String) (now : Time) : Sql AssertionKey := do
  let found ← .read fun view => view.assertionKeys.find? fun key =>
    decide (key.applicationId = application.id) && decide (key.keyId = keyId)
  match found with
  | none => .raise (.assertionKeyNotFound keyId)
  | some key =>
      if key.revokedAt.isNone then do
        let after := { key with revokedAt := some now }
        flushAssertionKey key after
        pure after
      else pure key

/-- The key id and the secret that `edge_assert` signs with: the application's own key, or the
deployment's. -/
def assertionSigner (settings : EdgeSettings) (view : Database) (applicationId : Uuid)
    (now : Time) : Option (String × List UInt8) :=
  match signingKey view applicationId now with
  | some own => some (own.keyId, encodeUtf8 own.secret)
  | none => settings.activeKey

/-! ## What the statements do to the rows -/

def AssertionKey.revoked (key : AssertionKey) (now : Time) : AssertionKey :=
  { key with revokedAt := some now }

/-- The keys with these ids are revoked. -/
def Database.revokeKeys (db : Database) (ids : List String) (now : Time) : Database :=
  { db with
    assertionKeys := db.assertionKeys.map fun key =>
      if key.keyId ∈ ids then key.revoked now else key }

/-- The live keys of an application, in the order of the table. -/
def liveRows (db : Database) (applicationId : Uuid) : List AssertionKey :=
  db.assertionKeys.filter fun key =>
    decide (key.applicationId = applicationId) && key.revokedAt.isNone

/-- The ids of the live keys an issue replaces. -/
def replacedIds (db : Database) (applicationId : Uuid) (now : Time) : List String :=
  ((liveKeys db applicationId).filter fun key =>
    (signingKey db applicationId now).all fun signing => key.keyId ≠ signing.keyId).map (·.keyId)

section Rows

variable {db : Database} {applicationId : Uuid} {now : Time} {ids : List String}

theorem Database.revokeKeys_nil (db : Database) (now : Time) : db.revokeKeys [] now = db := by
  simp [Database.revokeKeys]

theorem Database.revokeKeys_cons (db : Database) (id : String) (ids : List String) (now : Time) :
    (db.revokeKeys [id] now).revokeKeys ids now = db.revokeKeys (id :: ids) now := by
  simp only [Database.revokeKeys, List.map_map, Database.mk.injEq, and_true, true_and]
  refine List.map_congr_left fun key _ => ?_
  simp only [Function.comp_apply, List.mem_cons, List.not_mem_nil, or_false]
  by_cases here : key.keyId = id
  · simp [here, AssertionKey.revoked]
  · simp [here]

theorem mem_liveRows {key : AssertionKey} : key ∈ liveRows db applicationId ↔
    key ∈ db.assertionKeys ∧ key.applicationId = applicationId ∧ key.revokedAt = none := by
  simp [liveRows, List.mem_filter]

theorem mem_liveKeys {key : AssertionKey} :
    key ∈ liveKeys db applicationId ↔ key ∈ liveRows db applicationId := by
  rw [liveKeys, List.mem_insertionSort]
  rfl

theorem length_liveKeys : (liveKeys db applicationId).length = (liveRows db applicationId).length :=
  List.length_insertionSort _ _

theorem signingKey_eq (db : Database) (applicationId : Uuid) (now : Time) :
    signingKey db applicationId now =
      (((liveRows db applicationId).filter fun key => decide (key.activeFrom ≤ now)).insertionSort
        AssertionKey.newer).head? := by
  rw [signingKey, liveRows, List.filter_filter]
  simp only [Bool.and_comm, Bool.and_left_comm]

theorem mem_of_signingKey {key : AssertionKey} (signs : signingKey db applicationId now = some key) :
    key ∈ liveRows db applicationId ∧ key.activeFrom ≤ now := by
  rw [signingKey_eq] at signs
  have member := List.mem_of_head? signs
  rw [List.mem_insertionSort, List.mem_filter, decide_eq_true_eq] at member
  exact member

/-- Revoking leaves the other live keys as they are. -/
theorem liveRows_revokeKeys (db : Database) (applicationId : Uuid) (ids : List String) (now : Time) :
    liveRows (db.revokeKeys ids now) applicationId =
      (liveRows db applicationId).filter fun key => decide (key.keyId ∉ ids) := by
  simp only [liveRows, Database.revokeKeys]
  induction db.assertionKeys with
  | nil => rfl
  | cons key rest ih =>
      rw [List.map_cons, List.filter_cons, List.filter_cons, ih]
      by_cases here : key.keyId ∈ ids
      · simp only [if_pos here, AssertionKey.revoked, Option.isNone_some, Bool.and_false,
          Bool.false_eq_true, if_false]
        split
        next => rw [List.filter_cons_of_neg (by simpa using here)]
        next => rfl
      · simp only [if_neg here]
        split
        next => rw [List.filter_cons_of_pos (by simpa using here)]
        next => rfl

theorem keyIds_revokeKeys (db : Database) (ids : List String) (now : Time) :
    (db.revokeKeys ids now).assertionKeys.map (·.keyId) = db.assertionKeys.map (·.keyId) := by
  simp only [Database.revokeKeys, List.map_map]
  refine List.map_congr_left fun key _ => ?_
  simp only [Function.comp_apply]
  split <;> rfl

end Rows

section Statements

variable {db : Database}

theorem flushAssertionKey_spec {key : AssertionKey} (stored : key.keyId ∈ db.assertionKeys.map (·.keyId))
    (live : key.revokedAt = none) (now : Time) :
    (flushAssertionKey key (key.revoked now)).Returns db fun _ after =>
      after = db.revokeKeys [key.keyId] now := by
  have changed : key.revoked now ≠ key := by
    intro same
    have revoked := congrArg AssertionKey.revokedAt same
    rw [live] at revoked
    cases revoked
  have present : (db.assertionKeys.any fun stored => stored.keyId == key.keyId) = true := by
    obtain ⟨row, member, same⟩ := List.mem_map.mp stored
    exact List.any_eq_true.mpr ⟨row, member, by simpa using same⟩
  unfold flushAssertionKey
  rw [if_neg changed]
  apply Program.Spec.of_write
  rw [if_pos present]
  apply Program.Spec.of_pure
  simp [Database.revokeKeys, AssertionKey.revoked, column, live]

/-- The loop of `issue_key`. -/
theorem flushAssertionKeys_spec (keys : List AssertionKey)
    (stored : ∀ key ∈ keys, key.keyId ∈ db.assertionKeys.map (·.keyId))
    (live : ∀ key ∈ keys, key.revokedAt = none) (now : Time) :
    (Program.foldEach keys () fun _ key => flushAssertionKey key (key.revoked now)).Returns db
      fun _ after => after = db.revokeKeys (keys.map (·.keyId)) now := by
  induction keys generalizing db with
  | nil => exact .of_pure (db.revokeKeys_nil now).symm
  | cons key keys ih =>
      apply (flushAssertionKey_spec (stored key List.mem_cons_self) (live key List.mem_cons_self)
        now).bind
      rintro _ _ rfl
      have kept : ∀ other ∈ keys,
          other.keyId ∈ (db.revokeKeys [key.keyId] now).assertionKeys.map (·.keyId) := by
        intro other member
        rw [keyIds_revokeKeys]
        exact stored other (List.mem_cons_of_mem _ member)
      have later := ih kept fun other member => live other (List.mem_cons_of_mem _ member)
      rw [Database.revokeKeys_cons] at later
      exact later

/-- What an issue that succeeds has done. -/
structure Issued (db : Database) (application : Application) (activateIn : Time) (fresh : FreshKey)
    (now : Time) (after : Database) : Prop where
  admissible : 0 ≤ activateIn ∧ activateIn ≤ maxActivation
  unused : "app_" ++ fresh.hex ∉ db.assertionKeys.map (·.keyId)
  rows : after.assertionKeys =
    (db.revokeKeys (replacedIds db application.id now) now).assertionKeys ++
      [newAssertionKey application activateIn fresh now]
  applications : after.applications = db.applications

theorem issueKey_spec (application : Application) (activateIn : Time) (fresh : FreshKey) (now : Time) :
    (issueKey application activateIn fresh now).Ensures db fun value after =>
      value = (newAssertionKey application activateIn fresh now, fresh.secret) ∧
        Issued db application activateIn fresh now after := by
  unfold issueKey
  refine .requireThen (fun admissible => ?_) fun _ => trivial
  apply Program.Spec.readThen
  apply Program.Spec.readThen
  have listed : ∀ key ∈ (liveKeys db application.id).filter fun key =>
      (signingKey db application.id now).all fun signing => key.keyId ≠ signing.keyId,
      key ∈ liveRows db application.id :=
    fun key member => mem_liveKeys.mp (List.mem_of_mem_filter member)
  apply (flushAssertionKeys_spec _
    (fun key member => List.mem_map_of_mem (mem_liveRows.mp (listed key member)).1)
    (fun key member => (mem_liveRows.mp (listed key member)).2.2) now).andThen
  rintro _ _ rfl
  have inserted : (insertAssertionKey (newAssertionKey application activateIn fresh now)).Ensures
      (db.revokeKeys (replacedIds db application.id now) now) fun _ after =>
        Issued db application activateIn fresh now after := by
    unfold insertAssertionKey
    apply Program.Spec.of_write
    split_ifs with clash owned
    · exact .of_raise trivial
    · apply Program.Spec.of_pure
      refine ⟨admissible, ?_, rfl, rfl⟩
      rw [← keyIds_revokeKeys db (replacedIds db application.id now) now]
      intro seen
      obtain ⟨row, member, same⟩ := List.mem_map.mp seen
      exact clash (List.any_eq_true.mpr ⟨row, member, by simpa [newAssertionKey] using same⟩)
    · exact .of_raise trivial
  exact inserted.bind fun _ _ issued => .of_pure ⟨rfl, issued⟩

theorem revokeKey_spec (application : Application) (keyId : String) (now : Time) :
    (revokeKey application keyId now).Ensures db fun _ after =>
      ∃ key ∈ db.assertionKeys, key.applicationId = application.id ∧ key.keyId = keyId ∧
        ((key.revokedAt = none ∧ after = db.revokeKeys [keyId] now) ∨
          (key.revokedAt ≠ none ∧ after = db)) := by
  unfold revokeKey
  apply Program.Spec.readThen
  split
  next => exact .of_raise trivial
  next key found =>
    have chosen := List.find?_some found
    rw [Bool.and_eq_true, decide_eq_true_eq, decide_eq_true_eq] at chosen
    obtain ⟨owner, rfl⟩ := chosen
    have member := List.mem_of_find?_eq_some found
    split_ifs with live
    · have none : key.revokedAt = none := Option.isNone_iff_eq_none.mp live
      apply (flushAssertionKey_spec (List.mem_map_of_mem member) none now).andThen
      rintro _ _ rfl
      exact .of_pure ⟨key, member, owner, rfl, .inl ⟨none, rfl⟩⟩
    · exact .of_pure ⟨key, member, owner, rfl,
        .inr ⟨fun none => live (Option.isNone_iff_eq_none.mpr none), rfl⟩⟩

/-- A live key of the application is found and revoked. -/
theorem revokeKey_live {application : Application} {key : AssertionKey}
    (keyed : (db.assertionKeys.map (·.keyId)).Nodup) (live : key ∈ liveRows db application.id)
    (now : Time) :
    (revokeKey application key.keyId now).Returns db fun _ after =>
      after = db.revokeKeys [key.keyId] now := by
  obtain ⟨member, owner, none⟩ := mem_liveRows.mp live
  have found : (db.assertionKeys.find? fun row =>
      decide (row.applicationId = application.id) && decide (row.keyId = key.keyId)) = some key := by
    rw [List.find?_eq_some_iff_append]
    obtain ⟨before, rest, rows⟩ := List.append_of_mem member
    refine ⟨by simp [owner], before, rest, rows, fun row earlier => ?_⟩
    rw [rows, List.map_append, List.map_cons, List.nodup_append] at keyed
    have differs := keyed.2.2 _ (List.mem_map_of_mem earlier) _ List.mem_cons_self
    simp [differs]
  unfold revokeKey
  apply Program.Spec.readThen
  rw [found]
  simp only [none, Option.isNone_none, if_true]
  apply (flushAssertionKey_spec (List.mem_map_of_mem member) none now).andThen
  rintro _ _ rfl
  exact .of_pure rfl

end Statements

end CustomDomain
