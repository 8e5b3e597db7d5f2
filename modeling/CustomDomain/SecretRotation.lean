import CustomDomain.WebhookAttempts

/-!
# Rotating a webhook secret

A consumer may go on with a replaced secret for `rotationGrace`.  A subscription
has room for one previous secret and its expiry, so a second rotation drops the
secret the first one replaced, whatever is left of its grace.
-/

namespace CustomDomain

open Transaction Webhooks

/-- The subscription after `rotate_secret` with the default grace. -/
def WebhookSubscription.rotated (subscription : WebhookSubscription) (secret : String)
    (now : Time) : WebhookSubscription :=
  { subscription with
    previousSecret := some subscription.secret
    previousSecretExpiresAt := some (now + rotationGrace)
    secret := secretPrefix ++ secret }

/-- One call of `rotate_secret`: the secret drawn and the time. -/
structure Rotation where
  secret : String
  now : Time

/-- The state after some calls of `rotate_secret`, each one transaction. -/
def rotateAll (application : Application) (subscriptionId : Uuid) (rotations : List Rotation)
    (db : Database) : Database :=
  rotations.foldl (fun db rotation =>
    (rotateSecret application subscriptionId rotation.secret rotationGrace
      rotation.now).transact db) db

/-- What the calls make of the subscription. -/
def WebhookSubscription.rotatedAll (subscription : WebhookSubscription)
    (rotations : List Rotation) : WebhookSubscription :=
  rotations.foldl (fun subscription rotation =>
    subscription.rotated rotation.secret rotation.now) subscription

/-! ## The stored row -/

/-- The subscription is the row under its identifier. -/
structure WebhookSubscription.StoredIn (subscription : WebhookSubscription)
    (application : Application) (db : Database) : Prop where
  found : db.subscription? subscription.id = some subscription
  keyed : (db.subscriptions.map (·.id)).Nodup
  owner : subscription.applicationId = application.id

theorem WebhookSubscription.patch_same (before stored : WebhookSubscription) :
    before.patch before stored = stored := by
  simp [WebhookSubscription.patch, column]

/-- A flush of a stored row writes what changed. -/
theorem flushSubscription_stored {db : Database} {before : WebhookSubscription}
    (present : (db.subscription? before.id).isSome = true) (after : WebhookSubscription) :
    (flushSubscription before after).Returns db fun _ last =>
      last = db.updateSubscription before.id (before.patch after) := by
  unfold flushSubscription
  split
  next same =>
    subst same
    apply Program.Spec.of_pure
    simp [Database.updateSubscription, WebhookSubscription.patch_same]
  next =>
    apply Program.Spec.of_write
    rw [if_pos present]
    exact .of_pure rfl

section Row

variable {application : Application} {db : Database} {subscription : WebhookSubscription}
  (stored : subscription.StoredIn application db)

include stored

theorem getSubscription_stored :
    (getSubscription application subscription.id).Returns db fun value after =>
      after = db ∧ value = subscription := by
  unfold getSubscription
  apply Program.Spec.readThen
  have present := KeyedRows.mem_of_lookup stored.found
  have found : db.subscriptions.find? (fun row => decide (row.id = subscription.id) &&
      decide (row.applicationId = application.id)) = some subscription := by
    have rows := KeyedRows.filter_key_of_mem stored.keyed present
    rw [← List.head?_filter, ← List.filter_filter, List.filter_comm, rows]
    simp [stored.owner]
  rw [found]
  exact .of_pure ⟨rfl, rfl⟩

/-- A rotation replaces the row. -/
theorem rotateSecret_stored (secret : String) (now : Time) :
    (subscription.rotated secret now).StoredIn application
      ((rotateSecret application subscription.id secret rotationGrace now).transact db) := by
  have spec : (rotateSecret application subscription.id secret rotationGrace now).Returns db
      fun _ after => after = db.updateSubscription subscription.id
        (subscription.patch (subscription.rotated secret now)) := by
    unfold rotateSecret
    apply (getSubscription_stored stored).bind
    rintro _ _ ⟨rfl, rfl⟩
    apply (flushSubscription_stored (by simp [stored.found]) _).bind
    rintro _ _ rfl
    exact .of_pure rfl
  obtain ⟨value, after, ran⟩ := spec.returns
  rw [Program.transact_of_ok ran, spec.result ran]
  have kept : ∀ row, (subscription.patch (subscription.rotated secret now) row).id = row.id :=
    fun _ => rfl
  refine ⟨?_, ?_, stored.owner⟩
  · have row : (db.updateSubscription subscription.id
        (subscription.patch (subscription.rotated secret now))).subscription? subscription.id =
        if subscription.id = subscription.id then (db.subscription? subscription.id).map
          (subscription.patch (subscription.rotated secret now))
        else db.subscription? subscription.id :=
      KeyedRows.lookup_update kept subscription.id
    have patched : subscription.patch (subscription.rotated secret now) subscription =
        subscription.rotated secret now := by
      simp [WebhookSubscription.patch, WebhookSubscription.rotated]
    rw [show (subscription.rotated secret now).id = subscription.id from rfl, row, if_pos rfl, stored.found,
      Option.map_some, patched]
  · rw [show (db.updateSubscription subscription.id
      (subscription.patch (subscription.rotated secret now))).subscriptions.map (·.id) =
        db.subscriptions.map (·.id) from KeyedRows.keys_update kept]
    exact stored.keyed

theorem rotateAll_stored (rotations : List Rotation) :
    (subscription.rotatedAll rotations).StoredIn application
        (rotateAll application subscription.id rotations db) ∧
      (subscription.rotatedAll rotations).id = subscription.id := by
  induction rotations generalizing db subscription with
  | nil => exact ⟨stored, rfl⟩
  | cons rotation rotations ih =>
      exact ih (rotateSecret_stored stored rotation.secret rotation.now)

end Row

/-! ## Secrets that were replaced -/

namespace WebhookSubscription

theorem rotatedAll_append (subscription : WebhookSubscription) (first second : List Rotation) :
    subscription.rotatedAll (first ++ second) =
      (subscription.rotatedAll first).rotatedAll second := List.foldl_append

/-- The current secret is the one drawn last. -/
theorem rotatedAll_secret (subscription : WebhookSubscription) {drawn : String}
    (first : subscription.secret = secretPrefix ++ drawn) (rotations : List Rotation) :
    ∃ secret ∈ drawn :: rotations.map (·.secret),
      (subscription.rotatedAll rotations).secret = secretPrefix ++ secret := by
  induction rotations generalizing subscription drawn with
  | nil => exact ⟨drawn, by simp, first⟩
  | cons rotation rotations ih =>
      obtain ⟨secret, member, current⟩ :=
        ih (subscription.rotated rotation.secret rotation.now) rfl
      exact ⟨secret, List.mem_cons_of_mem _ member, current⟩

/-- The secret a single rotation replaced signs until its grace is over. -/
theorem mem_signingSecrets_rotated {subscription : WebhookSubscription}
    (nonempty : subscription.secret ≠ "") (secret : String) (start now : Time) :
    subscription.secret ∈ signingSecrets (subscription.rotated secret start) now ↔
      now < start + rotationGrace ∨ subscription.secret = secretPrefix ++ secret := by
  unfold signingSecrets rotated
  simp only [nonempty, ne_eq, not_false_eq_true, true_and]
  split
  next early => simp [early]
  next late => simp [late]

/-- Only the current secret and the one it replaced can sign. -/
theorem signingSecrets_rotated_subset {subscription : WebhookSubscription} {secret other : String}
    {start now : Time} (signs : other ∈ signingSecrets (subscription.rotated secret start) now) :
    other = secretPrefix ++ secret ∨ other = subscription.secret := by
  unfold signingSecrets rotated at signs
  dsimp only at signs
  split at signs
  next => simpa using signs
  next => exact .inl (List.mem_singleton.mp signs)

/-- A second rotation drops the secret the first one replaced. -/
theorem not_mem_signingSecrets {subscription : WebhookSubscription} {drawn : String}
    (first : subscription.secret = secretPrefix ++ drawn) {before rest : List Rotation}
    {rotation last : Rotation}
    (distinct : (drawn :: (before ++ rotation :: (rest ++ [last])).map (·.secret)).Nodup)
    (now : Time) :
    (subscription.rotatedAll before).secret ∉
      signingSecrets (subscription.rotatedAll (before ++ rotation :: (rest ++ [last]))) now := by
  intro signs
  obtain ⟨old, drawnBefore, replaced⟩ := rotatedAll_secret subscription first before
  have shape : subscription.rotatedAll (before ++ rotation :: (rest ++ [last])) =
      (((subscription.rotatedAll before).rotated rotation.secret rotation.now).rotatedAll
        rest).rotated last.secret last.now := by
    rw [rotatedAll_append, rotatedAll, List.foldl_cons, List.foldl_append]
    rfl
  rw [shape, replaced] at signs
  obtain ⟨middle, drawnAfter, current⟩ := rotatedAll_secret
    ((subscription.rotatedAll before).rotated rotation.secret rotation.now) rfl rest
  rw [List.map_append, ← List.cons_append, List.nodup_append] at distinct
  have apart := distinct.2.2 old drawnBefore
  rcases signingSecrets_rotated_subset signs with same | same
  · exact apart last.secret (by simp) (String.append_right_inj secretPrefix |>.mp same)
  · rw [current] at same
    refine apart middle ?_ (String.append_right_inj secretPrefix |>.mp same)
    rw [List.map_cons, List.map_append, ← List.cons_append]
    exact List.mem_append_left _ drawnAfter

end WebhookSubscription

/-! ## The grace -/

/-- Each replaced secret signs until its grace is over, and not after unless it
is the current one. -/
def GraceKept (application : Application) (subscriptionId : Uuid) (rotations : List Rotation)
    (db : Database) (now : Time) : Prop :=
  ∀ before rotation rest, rotations = before ++ rotation :: rest →
    ∃ old ∈ (rotateAll application subscriptionId before db).subscription? subscriptionId,
    ∃ row ∈ (rotateAll application subscriptionId rotations db).subscription? subscriptionId,
      (now < rotation.now + rotationGrace → old.secret ∈ signingSecrets row now) ∧
      (rotation.now + rotationGrace ≤ now → old.secret ∈ signingSecrets row now →
        old.secret = row.secret)

/-- The grace is kept exactly when every rotation but the last one is a grace
ago.  The secrets drawn are assumed to be distinct. -/
theorem graceKept_iff {application : Application} {db : Database}
    {subscription : WebhookSubscription} (stored : subscription.StoredIn application db)
    {drawn : String} (first : subscription.secret = secretPrefix ++ drawn)
    {rotations : List Rotation} (distinct : (drawn :: rotations.map (·.secret)).Nodup)
    (now : Time) :
    GraceKept application subscription.id rotations db now ↔
      ∀ rotation ∈ rotations.dropLast, rotation.now + rotationGrace ≤ now := by
  have row : ∀ rotations, (rotateAll application subscription.id rotations db).subscription?
      subscription.id = some (subscription.rotatedAll rotations) := by
    intro rotations
    obtain ⟨reached, id⟩ := rotateAll_stored stored rotations
    have found := reached.found
    rwa [id] at found
  unfold GraceKept
  simp only [row, Option.mem_some_iff, exists_eq_left']
  constructor
  · intro kept rotation member
    have split : rotations = rotations.dropLast ++ [rotations.getLast (by
        rintro rfl
        cases member)] := (List.dropLast_append_getLast _).symm
    obtain ⟨before, rest, shape⟩ := List.append_of_mem member
    rw [shape, List.append_assoc, List.cons_append] at split
    by_contra early
    have signs := (kept before rotation _ split).1 (not_le.mp early)
    rw [split] at signs distinct
    exact WebhookSubscription.not_mem_signingSecrets first distinct now signs
  · rintro past before rotation rest rfl
    rcases List.eq_nil_or_concat rest with rfl | ⟨rest, last, rfl⟩
    · obtain ⟨old, -, replaced⟩ := subscription.rotatedAll_secret first before
      have nonempty : (subscription.rotatedAll before).secret ≠ "" := by
        rw [replaced]
        simp [secretPrefix]
      have shape : subscription.rotatedAll (before ++ [rotation]) =
          (subscription.rotatedAll before).rotated rotation.secret rotation.now :=
        subscription.rotatedAll_append before [rotation]
      rw [shape, WebhookSubscription.mem_signingSecrets_rotated nonempty]
      refine ⟨Or.inl, fun late signs => ?_⟩
      exact signs.resolve_left (not_lt.mpr late)
    · rw [List.concat_eq_append] at *
      have old : rotation.now + rotationGrace ≤ now := by
        apply past
        rw [← List.cons_append, ← List.append_assoc, List.dropLast_concat]
        simp
      have dropped := WebhookSubscription.not_mem_signingSecrets first distinct now
      exact ⟨fun early => absurd old (not_le.mpr early), fun _ signs => absurd signs dropped⟩

/-- Two rotations an hour apart: an hour after the second, the first secret does
not sign any more. -/
theorem grace_cut_short :
    ¬ GraceKept sampleApplication 7 [⟨"second", 0⟩, ⟨"third", hours 1⟩]
      { applications := [sampleApplication], subscriptions := [sampleSubscription] } (hours 2) := by
  intro kept
  have signs := kept [] ⟨"second", 0⟩ [⟨"third", hours 1⟩] rfl
  revert signs
  decide +kernel

/-- The same subscription, rotated again after the first grace is over. -/
theorem graceKept_iff_sample :
    GraceKept sampleApplication 7 [⟨"second", 0⟩, ⟨"third", hours 24⟩]
      { applications := [sampleApplication], subscriptions := [sampleSubscription] } (hours 25) := by
  have stored : sampleSubscription.StoredIn sampleApplication
      { applications := [sampleApplication], subscriptions := [sampleSubscription] } :=
    ⟨by decide, by decide, rfl⟩
  have first : sampleSubscription.secret = secretPrefix ++ "sample" := by decide
  refine (graceKept_iff stored first (by decide) (hours 25)).mpr ?_
  decide

end CustomDomain
