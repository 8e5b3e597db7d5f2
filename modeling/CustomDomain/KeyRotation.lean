import CustomDomain.AssertionKeys
import CustomDomain.KeyedRows

/-!
# Rotating an application's assertion keys

Runs of `issue_key` and `revoke_key` for any applications.  An issue leaves its application the key
that signed at that moment and the new one, so the key that signs later follows from the clock,
and, where both are active from the same time, from which row was made later.
-/

namespace CustomDomain

open Transaction

/-- One call of the two operations. -/
inductive KeyCall where
  | issue (application : Application) (activateIn : Time) (fresh : FreshKey) (now : Time)
  | revoke (application : Application) (keyId : String) (now : Time)

/-- The rows, and the time of the last call. -/
structure KeyState where
  db : Database
  clock : Time

/-- One call, not before the last one.  The time a row is made at is read from the clock apart from
`now`, and nothing orders it. -/
def KeyState.perform (state : KeyState) : KeyCall → Option KeyState
  | .issue application activateIn fresh now =>
      if state.clock ≤ now then
        some { db := (issueKey application activateIn fresh now).transact state.db, clock := now }
      else none
  | .revoke application keyId now =>
      if state.clock ≤ now then
        some { db := (revokeKey application keyId now).transact state.db, clock := now }
      else none

/-- The states that calls at non-decreasing times reach. -/
abbrev KeyReaches : KeyState → KeyState → Prop :=
  GuardedRuns.Reaches KeyState.perform fun _ _ _ => True

/-- The key that signs at an issue is not active from the same time as the new one, or its row was
made before. -/
def Untied (db : Database) (application : Application) (activateIn : Time) (fresh : FreshKey)
    (now : Time) : Prop :=
  ∀ signing, signingKey db application.id now = some signing →
    signing.activeFrom = now + activateIn → signing.createdAt < fresh.createdAt

/-! ## The live keys after an issue -/

section Issue

variable {db after : Database} {application : Application} {activateIn now : Time} {fresh : FreshKey}
  (keyed : (db.assertionKeys.map (·.keyId)).Nodup)
  (issued : Issued db application activateIn fresh now after)

include keyed

theorem liveRows_keyed (applicationId : Uuid) :
    ((liveRows db applicationId).map (·.keyId)).Nodup :=
  keyed.sublist (List.filter_sublist.map _)

/-- An issue replaces every live key but the one that signs. -/
theorem liveRows_unreplaced (applicationId : Uuid) (now : Time) :
    ((liveRows db applicationId).filter fun key =>
      decide (key.keyId ∉ replacedIds db applicationId now)) =
        (signingKey db applicationId now).toList := by
  have spared : ∀ key ∈ liveRows db applicationId,
      key.keyId ∉ replacedIds db applicationId now ↔
        ∃ signing, signingKey db applicationId now = some signing ∧ key.keyId = signing.keyId := by
    intro key member
    constructor
    · intro spared
      by_contra other
      refine spared (List.mem_map_of_mem (List.mem_filter.mpr ⟨mem_liveKeys.mpr member, ?_⟩))
      rw [Option.all_eq_true]
      intro signing signs
      exact decide_eq_true fun same => other ⟨signing, signs, same⟩
    · rintro ⟨signing, signs, same⟩ replaced
      obtain ⟨row, listed, rowSame⟩ := List.mem_map.mp replaced
      have differs := (List.mem_filter.mp listed).2
      rw [signs, Option.all_some, decide_eq_true_eq] at differs
      exact differs (rowSame.trans same)
  cases signs : signingKey db applicationId now with
  | none =>
      rw [Option.toList_none, List.filter_eq_nil_iff]
      intro key member
      rw [decide_eq_true_eq, spared key member, signs]
      rintro ⟨signing, none, -⟩
      cases none
  | some signing =>
      rw [Option.toList_some, ← KeyedRows.filter_key_of_mem (liveRows_keyed keyed applicationId)
        (mem_of_signingKey signs).1]
      refine List.filter_congr fun key member => ?_
      rw [decide_eq_decide, spared key member, signs]
      constructor
      · rintro ⟨_, ⟨⟩, same⟩
        exact same
      · exact fun same => ⟨signing, rfl, same⟩

include issued

omit keyed in
theorem Issued.liveRows_eq (applicationId : Uuid) :
    liveRows after applicationId =
      liveRows (db.revokeKeys (replacedIds db application.id now) now) applicationId ++
        if application.id = applicationId then [newAssertionKey application activateIn fresh now]
        else [] := by
  rw [liveRows, issued.rows, List.filter_append]
  congr 1
  simp [newAssertionKey, List.filter_cons]

/-- The application has the key that signed and the new one. -/
theorem Issued.liveRows_own : liveRows after application.id =
    (signingKey db application.id now).toList ++
      [newAssertionKey application activateIn fresh now] := by
  rw [issued.liveRows_eq, if_pos rfl, liveRows_revokeKeys, liveRows_unreplaced keyed]

/-- Other applications keep their live keys. -/
theorem Issued.liveRows_other {applicationId : Uuid} (other : application.id ≠ applicationId) :
    liveRows after applicationId = liveRows db applicationId := by
  rw [issued.liveRows_eq, if_neg other, List.append_nil, liveRows_revokeKeys, List.filter_eq_self]
  intro key member
  rw [decide_eq_true_eq]
  intro replaced
  obtain ⟨row, listed, same⟩ := List.mem_map.mp replaced
  have own := mem_liveRows.mp (mem_liveKeys.mp (List.mem_of_mem_filter listed))
  have stored := mem_liveRows.mp member
  have rows : row = key := List.inj_on_of_nodup_map keyed own.1 stored.1 same
  exact other (own.2.1.symm.trans ((congrArg AssertionKey.applicationId rows).trans stored.2.1))

theorem Issued.keyIds_nodup : (after.assertionKeys.map (·.keyId)).Nodup := by
  rw [issued.rows, List.map_append, keyIds_revokeKeys, List.map_singleton, ← List.concat_eq_append]
  exact keyed.concat issued.unused

/-- Where the key that signs was made before the new one or is active from another time, it signs
until the new one's activation, and from then on the new one does. -/
theorem Issued.signingKey_later (untied : Untied db application activateIn fresh now)
    {at_ : Time} (after_ : now ≤ at_) :
    signingKey after application.id at_ =
      if at_ < now + activateIn then signingKey db application.id now
      else some (newAssertionKey application activateIn fresh now) := by
  have active : (newAssertionKey application activateIn fresh now).activeFrom = now + activateIn := rfl
  have stamp : (newAssertionKey application activateIn fresh now).createdAt = fresh.createdAt := rfl
  rw [signingKey_eq, issued.liveRows_own keyed]
  generalize newAssertionKey application activateIn fresh now = key at active stamp
  cases signs : signingKey db application.id now with
  | none =>
      rw [Option.toList_none, List.nil_append]
      split
      next early => rw [List.filter_cons_of_neg (by simpa [active] using early)]; rfl
      next late => rw [List.filter_cons_of_pos (by simpa [active] using late)]; rfl
  | some signing =>
      have started := (mem_of_signingKey signs).2
      have delay := issued.admissible.1
      rw [Option.toList_some, List.singleton_append,
        List.filter_cons_of_pos (by rw [decide_eq_true_eq]; exact started.trans after_)]
      split
      next early => rw [List.filter_cons_of_neg (by simpa [active] using early)]; rfl
      next late =>
        rw [List.filter_cons_of_pos (by simpa [active] using late)]
        have behind : ¬ signing.newer key := by
          rintro (sooner | ⟨same, made⟩)
          · rw [active] at sooner
            have bound : signing.activeFrom ≤ now := started
            exact absurd sooner (not_lt.mpr (bound.trans (le_add_of_nonneg_right delay)))
          · rw [stamp] at made
            exact absurd (untied signing signs (same.symm.trans active)) (not_lt.mpr made)
        simp [List.insertionSort, List.orderedInsert, behind]

/-- A key that is active from the same time and was not made before the new one signs on at the new
one's activation. -/
theorem Issued.signingKey_tied {signing : AssertionKey}
    (signs : signingKey db application.id now = some signing)
    (same : signing.activeFrom = now + activateIn) (made : fresh.createdAt ≤ signing.createdAt) :
    signingKey after application.id (now + activateIn) = some signing := by
  have ahead : signing.newer (newAssertionKey application activateIn fresh now) :=
    .inr ⟨same.symm, made⟩
  rw [signingKey_eq, issued.liveRows_own keyed, signs, Option.toList_some, List.singleton_append,
    List.filter_cons_of_pos (by simp [same]), List.filter_cons_of_pos (by simp [newAssertionKey])]
  simp [List.insertionSort, ahead]

/-- Exactly then the new key takes over at its activation. -/
theorem Issued.takes_over_iff :
    (∀ at_, now ≤ at_ → signingKey after application.id at_ =
        if at_ < now + activateIn then signingKey db application.id now
        else some (newAssertionKey application activateIn fresh now)) ↔
      Untied db application activateIn fresh now := by
  constructor
  · intro over_ signing signs same
    by_contra made
    have tied := issued.signingKey_tied keyed signs same (not_lt.mp made)
    rw [over_ _ (le_add_of_nonneg_right issued.admissible.1), if_neg (lt_irrefl _),
      Option.some.injEq] at tied
    have seen := List.mem_map_of_mem (f := (·.keyId)) (mem_liveRows.mp (mem_of_signingKey signs).1).1
    rw [← tied] at seen
    exact issued.unused seen
  · exact fun untied at_ after_ => issued.signingKey_later keyed untied after_

end Issue

/-! ## Every call keeps the invariant -/

/-- The ids are unique, and no application has more than two live keys. -/
structure KeysHeld (state : KeyState) : Prop where
  keyed : (state.db.assertionKeys.map (·.keyId)).Nodup
  few : ∀ applicationId, (liveRows state.db applicationId).length ≤ 2

section Calls

variable {state after : KeyState} {call : KeyCall}

/-- Everything a call can do. -/
theorem KeyState.perform_cases (performed : state.perform call = some after) :
    after.db = state.db ∨
      (∃ application activateIn fresh now,
        Issued state.db application activateIn fresh now after.db) ∨
      ∃ keyId now, after.db = state.db.revokeKeys [keyId] now := by
  cases call with
  | issue application activateIn fresh now =>
      simp only [KeyState.perform] at performed
      split at performed
      next =>
        cases performed
        have spec := @issueKey_spec state.db application activateIn fresh now
        unfold Program.transact
        split
        next value rows ran =>
          exact .inr (.inl ⟨application, activateIn, fresh, now, (spec.result ran).2⟩)
        next => exact .inl rfl
      next => cases performed
  | revoke application keyId now =>
      simp only [KeyState.perform] at performed
      split at performed
      next =>
        cases performed
        have spec := @revokeKey_spec state.db application keyId now
        unfold Program.transact
        split
        next value rows ran =>
          obtain ⟨key, -, -, -, ⟨-, revoked⟩ | ⟨-, same⟩⟩ := spec.result ran
          · exact .inr (.inr ⟨keyId, now, revoked⟩)
          · exact .inl same
        next => exact .inl rfl
      next => cases performed

theorem KeysHeld.step (held : KeysHeld state) (performed : state.perform call = some after) :
    KeysHeld after := by
  obtain ⟨keyed, few⟩ := held
  rcases KeyState.perform_cases performed with
    same | ⟨application, activateIn, fresh, now, issued⟩ | ⟨keyId, now, rows⟩
  · rw [← same] at keyed few
    exact ⟨keyed, few⟩
  · constructor
    case keyed => exact issued.keyIds_nodup keyed
    case few =>
      intro applicationId
      by_cases own : application.id = applicationId
      · subst own
        rw [issued.liveRows_own keyed, List.length_append, List.length_singleton]
        cases signingKey state.db application.id now <;> simp
      · rw [issued.liveRows_other keyed own]
        exact few applicationId
  · constructor
    case keyed =>
      rw [rows, keyIds_revokeKeys]
      exact keyed
    case few =>
      intro applicationId
      rw [rows, liveRows_revokeKeys]
      exact (List.length_filter_le _ _).trans (few applicationId)

/-- There is a revoked key of that id. -/
def IsRevoked (db : Database) (keyId : String) : Prop :=
  ∃ key ∈ db.assertionKeys, key.keyId = keyId ∧ key.revokedAt ≠ none

theorem IsRevoked.revokeKeys {db : Database} {keyId : String} (revoked : IsRevoked db keyId)
    (ids : List String) (now : Time) : IsRevoked (db.revokeKeys ids now) keyId := by
  obtain ⟨key, member, same, revoked⟩ := revoked
  refine ⟨_, List.mem_map_of_mem member, ?_, ?_⟩
  · split
    next => exact same
    next => exact same
  · split
    next => exact Option.some_ne_none now
    next => exact revoked

theorem IsRevoked.step {keyId : String} (revoked : IsRevoked state.db keyId)
    (performed : state.perform call = some after) : IsRevoked after.db keyId := by
  rcases KeyState.perform_cases performed with
    same | ⟨application, activateIn, fresh, now, issued⟩ | ⟨id, now, rows⟩
  · rw [same]
    exact revoked
  · obtain ⟨key, member, rest⟩ :=
      revoked.revokeKeys (replacedIds state.db application.id now) now
    refine ⟨key, ?_, rest⟩
    rw [issued.rows]
    exact List.mem_append_left _ member
  · rw [rows]
    exact revoked.revokeKeys [id] now

/-- A revoked key does not sign. -/
theorem IsRevoked.not_signing {db : Database} (keyed : (db.assertionKeys.map (·.keyId)).Nodup)
    {keyId : String} (revoked : IsRevoked db keyId) {applicationId : Uuid} {at_ : Time}
    {signing : AssertionKey} (signs : signingKey db applicationId at_ = some signing) :
    signing.keyId ≠ keyId := by
  intro same
  obtain ⟨key, member, id, revoked⟩ := revoked
  obtain ⟨stored, -, live⟩ := mem_liveRows.mp (mem_of_signingKey signs).1
  have rows : signing = key := List.inj_on_of_nodup_map keyed stored member (same.trans id.symm)
  exact revoked (rows ▸ live)

end Calls

/-! ## Revoking the signing key -/

section Revoke

variable {db : Database} {applicationId : Uuid} {key : AssertionKey} {now at_ : Time}

theorem signingKey_of_waiting (waiting : ∀ other ∈ liveRows db applicationId, at_ < other.activeFrom) :
    signingKey db applicationId at_ = none := by
  have none : (liveRows db applicationId).filter (fun key => decide (key.activeFrom ≤ at_)) = [] := by
    rw [List.filter_eq_nil_iff]
    intro other member
    rw [decide_eq_true_eq, not_le]
    exact waiting other member
  rw [signingKey_eq, none]
  rfl

/-- Of two live keys the other one is left. -/
theorem signingKey_of_revoked
    (few : (liveRows db applicationId).length ≤ 2) (live : key ∈ liveRows db applicationId)
    {other : AssertionKey} (present : other ∈ liveRows db applicationId)
    (different : other.keyId ≠ key.keyId) (started : other.activeFrom ≤ at_) :
    signingKey (db.revokeKeys [key.keyId] now) applicationId at_ = some other := by
  have remains : other ∈ (liveRows db applicationId).filter fun row =>
      decide (row.keyId ∉ [key.keyId]) := by
    rw [List.mem_filter]
    exact ⟨present, by simpa using different⟩
  have fewer : ((liveRows db applicationId).filter fun row =>
      decide (row.keyId ∉ [key.keyId])).length < (liveRows db applicationId).length := by
    rw [List.length_filter_lt_length_iff_exists]
    exact ⟨key, live, by simp⟩
  have single : liveRows (db.revokeKeys [key.keyId] now) applicationId = [other] := by
    rw [liveRows_revokeKeys]
    generalize (liveRows db applicationId).filter (fun row =>
      decide (row.keyId ∉ [key.keyId])) = rows at remains fewer
    cases rows with
    | nil => cases remains
    | cons first rest =>
        rw [List.length_cons] at fewer
        have alone : rest = [] := List.eq_nil_of_length_eq_zero (by omega)
        rw [alone, List.mem_singleton] at remains
        rw [alone, remains]
  rw [signingKey_eq, single, List.filter_cons_of_pos (by rw [decide_eq_true_eq]; exact started)]
  rfl

end Revoke

/-- A call that revokes a live key revokes just that one. -/
theorem KeysHeld.revoke {state after : KeyState} (held : KeysHeld state) {application : Application}
    {key : AssertionKey} (live : key ∈ liveRows state.db application.id) {now : Time}
    (performed : state.perform (.revoke application key.keyId now) = some after) :
    after.db = state.db.revokeKeys [key.keyId] now := by
  simp only [KeyState.perform] at performed
  split at performed
  next =>
    cases performed
    have spec := revokeKey_live held.keyed live now
    obtain ⟨value, rows, ran⟩ := spec.returns
    have revoked : rows = state.db.revokeKeys [key.keyId] now := spec.result ran
    rw [← revoked]
    exact Program.transact_of_ok ran
  next => cases performed

/-! ## Rotation -/

/-- Over any calls at non-decreasing times an application has at most two live keys.  After an issue
the key that signed signs on until the new key's activation, and the new one from then on, unless
the key that signed is active from that very time and its row was not made before.  A revoked key
never signs again; once the signing key is revoked the other live key signs if its time has come,
and else the deployment's. -/
theorem assertion_key_rotation_iff {start state : KeyState} (unissued : start.db.assertionKeys = [])
    (reaches : KeyReaches start state) (application : Application) :
    (liveKeys state.db application.id).length ≤ 2 ∧
      (∀ activateIn fresh now key after,
        state.perform (.issue application activateIn fresh now) = some after →
        ((issueKey application activateIn fresh now).run state.db).1 = .ok (key, fresh.secret) →
        ((∀ at_, now ≤ at_ → signingKey after.db application.id at_ =
            if at_ < now + activateIn then signingKey state.db application.id now
            else some key) ↔
          Untied state.db application activateIn fresh now)) ∧
      (∀ key ∈ state.db.assertionKeys, key.revokedAt ≠ none → ∀ later, KeyReaches state later →
        ∀ applicationId at_ signing, signingKey later.db applicationId at_ = some signing →
          signing.keyId ≠ key.keyId) ∧
      ∀ now key after, signingKey state.db application.id now = some key →
        state.perform (.revoke application key.keyId now) = some after → ∀ at_,
          (∀ other ∈ liveKeys state.db application.id, other.keyId ≠ key.keyId →
            other.activeFrom ≤ at_ → signingKey after.db application.id at_ = some other) ∧
          ((∀ other ∈ liveKeys state.db application.id, other.keyId ≠ key.keyId →
              at_ < other.activeFrom) →
            signingKey after.db application.id at_ = none ∧
              ∀ settings, assertionSigner settings after.db application.id at_ =
                settings.activeKey) := by
  have begins : KeysHeld start := by
    constructor
    case keyed => simp [unissued]
    case few => simp [liveRows, unissued]
  have held : KeysHeld state :=
    reaches.keeps KeysHeld begins fun performed _ held => held.step performed
  refine ⟨?_, ?_, ?_, ?_⟩
  · rw [length_liveKeys]
    exact held.few application.id
  · intro activateIn fresh now key after performed returned
    simp only [KeyState.perform] at performed
    split at performed
    next =>
      cases performed
      have spec := @issueKey_spec state.db application activateIn fresh now
      obtain ⟨rows, ran⟩ : ∃ rows, (issueKey application activateIn fresh now).run state.db =
          (.ok (key, fresh.secret), rows) := ⟨_, Prod.ext returned rfl⟩
      obtain ⟨made, issued⟩ := spec.result ran
      obtain rfl : key = newAssertionKey application activateIn fresh now := congrArg Prod.fst made
      rw [Program.transact_of_ok ran]
      exact issued.takes_over_iff held.keyed
    next => cases performed
  · intro key member revoked later onward applicationId at_ signing signs
    have both : KeysHeld later ∧ IsRevoked later.db key.keyId :=
      onward.keeps (fun state => KeysHeld state ∧ IsRevoked state.db key.keyId)
        ⟨held, key, member, rfl, revoked⟩
        fun performed _ both => ⟨both.1.step performed, both.2.step performed⟩
    exact both.2.not_signing both.1.keyed signs
  · intro now key after signs performed at_
    obtain ⟨live, -⟩ := mem_of_signingKey signs
    rw [held.revoke live performed]
    constructor
    · intro other present different started
      exact signingKey_of_revoked (held.few application.id) live
        (mem_liveKeys.mp present) different started
    · intro waiting
      have none : signingKey (state.db.revokeKeys [key.keyId] now) application.id at_ = none := by
        apply signingKey_of_waiting
        intro other member
        rw [liveRows_revokeKeys, List.mem_filter] at member
        exact waiting other (mem_liveKeys.mpr member.1) (by simpa using member.2)
      refine ⟨none, fun settings => ?_⟩
      rw [assertionSigner, none]

/-- One application without keys. -/
def rotationStart : KeyState where
  db := { applications := [sampleApplication] }
  clock := 0

/-- A key that signs at once, and the next one, which waits for an hour. -/
def rotationCalls : List KeyCall :=
  [.issue sampleApplication 0 ⟨"01", "first", 1⟩ 0,
    .issue sampleApplication (hours 1) ⟨"02", "second", 2⟩ (minutes 10)]

theorem assertion_key_rotation_sample :
    ∃ state, GuardedRuns.follow KeyState.perform (fun _ _ _ => True) rotationStart rotationCalls =
        some state ∧
      (liveKeys state.db sampleApplication.id).length ≤ 2 ∧
      (∀ key after, state.perform (.issue sampleApplication 0 ⟨"03", "third", 1⟩ (hours 2)) =
          some after →
        ((issueKey sampleApplication 0 ⟨"03", "third", 1⟩ (hours 2)).run state.db).1 =
          .ok (key, "third") →
        signingKey after.db sampleApplication.id (hours 2) = some key) ∧
      (signingKey state.db sampleApplication.id (hours 1)).map (·.keyId) = some "app_01" ∧
      ∀ key after, signingKey state.db sampleApplication.id (hours 1) = some key →
        state.perform (.revoke sampleApplication key.keyId (hours 1)) = some after →
        ∀ other ∈ liveKeys state.db sampleApplication.id, other.keyId ≠ key.keyId →
          other.activeFrom ≤ hours 2 →
          signingKey after.db sampleApplication.id (hours 2) = some other := by
  have ran : (GuardedRuns.follow KeyState.perform (fun _ _ _ => True) rotationStart
      rotationCalls).isSome = true := by decide +kernel
  obtain ⟨state, followed⟩ := Option.isSome_iff_exists.mp ran
  have signs : (GuardedRuns.follow KeyState.perform (fun _ _ _ => True) rotationStart
      rotationCalls).map (fun state =>
        ((signingKey state.db sampleApplication.id (hours 1)).map (·.keyId),
          (signingKey state.db sampleApplication.id (hours 2)).map (·.activeFrom))) =
      some (some "app_01", some (minutes 70)) := by decide +kernel
  rw [followed, Option.map_some, Option.some.injEq, Prod.mk.injEq] at signs
  have unissued : rotationStart.db.assertionKeys = [] := rfl
  have rotation := assertion_key_rotation_iff unissued
    (GuardedRuns.Reaches.of_follow .start followed) sampleApplication
  have untied : Untied state.db sampleApplication 0 ⟨"03", "third", 1⟩ (hours 2) := by
    intro signing chosen same
    rw [chosen, Option.map_some, Option.some.injEq, same] at signs
    exact absurd signs.2 (by decide)
  refine ⟨state, followed, rotation.1, ?_, signs.1, fun key after signing performed =>
    (rotation.2.2.2 (hours 1) key after signing performed (hours 2)).1⟩
  intro key after performed returned
  exact (rotation.2.1 0 _ (hours 2) key after performed returned).mpr untied (hours 2) le_rfl

/-- Two keys issued at one time to sign at once, the second row made at that time. -/
def tiedCalls (made : Time) : List KeyCall :=
  [.issue sampleApplication 0 ⟨"01", "first", 1⟩ 0,
    .issue sampleApplication 0 ⟨"02", "second", made⟩ 0]

/-- The live keys, the key that signs at once, and the one that signs a year later. -/
def KeyState.signers (state : KeyState) : List String × Option String × Option String :=
  ((liveKeys state.db sampleApplication.id).map (·.keyId),
    (signingKey state.db sampleApplication.id 0).map (·.keyId),
    (signingKey state.db sampleApplication.id (days 365)).map (·.keyId))

/-- The second of two keys issued at one time never takes over where its row was made in the same
microsecond as the first, or where the clock went back in between. -/
theorem second_key_passed_over :
    (GuardedRuns.follow KeyState.perform (fun _ _ _ => True) rotationStart (tiedCalls 1)).map
        KeyState.signers = some (["app_01", "app_02"], some "app_01", some "app_01") ∧
      (GuardedRuns.follow KeyState.perform (fun _ _ _ => True) rotationStart (tiedCalls 0)).map
        KeyState.signers = some (["app_01", "app_02"], some "app_01", some "app_01") := by
  decide +kernel

end CustomDomain
