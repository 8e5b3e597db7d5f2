import CustomDomain.KeyedRows
import CustomDomain.WebhookWorker

/-!
# What the webhook statements leave

Each transaction of the webhook service and of the webhook worker, run alone:
the deliveries it changes, looked up by identifier, and how it ends.
-/

namespace CustomDomain

open Transaction

/-! ## Lookups -/

theorem Database.delivery?_id {db : Database} {id : DeliveryId} {delivery : WebhookDelivery}
    (found : db.delivery? id = some delivery) : delivery.id = id ∧ delivery ∈ db.deliveries :=
  ⟨KeyedRows.key_of_lookup found, KeyedRows.mem_of_lookup found⟩

/-- The primary key of `webhook_deliveries`. -/
def Database.DeliveriesKeyed (db : Database) : Prop :=
  (db.deliveries.map (·.id)).Nodup

theorem Database.delivery?_of_mem {db : Database} (keyed : db.DeliveriesKeyed)
    {delivery : WebhookDelivery} (member : delivery ∈ db.deliveries) :
    db.delivery? delivery.id = some delivery :=
  KeyedRows.lookup_of_mem keyed member

theorem Database.delivery?_updateDelivery {change : WebhookDelivery → WebhookDelivery}
    (kept : ∀ row, (change row).id = row.id) (db : Database) (id other : DeliveryId) :
    (db.updateDelivery id change).delivery? other =
      if other = id then (db.delivery? id).map change else db.delivery? other :=
  KeyedRows.lookup_update kept other

theorem Database.DeliveriesKeyed.update {db : Database} (keyed : db.DeliveriesKeyed)
    {change : WebhookDelivery → WebhookDelivery} (kept : ∀ row, (change row).id = row.id)
    (id : DeliveryId) : (db.updateDelivery id change).DeliveriesKeyed := by
  have same : (db.updateDelivery id change).deliveries.map (·.id) = db.deliveries.map (·.id) :=
    KeyedRows.keys_update kept
  unfold Database.DeliveriesKeyed at *
  rw [same]
  exact keyed

@[simp] theorem WebhookDelivery.patch_id (before after stored : WebhookDelivery) :
    (before.patch after stored).id = stored.id := rfl

@[simp] theorem WebhookDelivery.patch_same (before stored : WebhookDelivery) :
    before.patch before stored = stored := by
  simp [WebhookDelivery.patch, column]

/-! ## Flushes -/

/-- A flush that goes through: the row is there, and its changed columns are
written. -/
theorem flushDelivery_spec (before after : WebhookDelivery) (db : Database) :
    (flushDelivery before after).Ensures db fun _ db' =>
      (after ≠ before → (db.delivery? before.id).isSome = true) ∧
        db' = db.updateDelivery before.id (before.patch after) := by
  unfold flushDelivery
  split
  next same =>
    apply Program.Spec.of_pure
    refine ⟨fun differs => absurd same differs, ?_⟩
    subst same
    simp [Database.updateDelivery]
  next =>
    apply Program.Spec.of_write
    split
    next found => exact .of_pure ⟨fun _ => found, rfl⟩
    next => exact .of_raise trivial

/-! ## Subscriptions -/

theorem getSubscription_spec (application : Application) (subscriptionId : Uuid)
    (db : Database) :
    (getSubscription application subscriptionId).Ensures db fun subscription after =>
      after = db ∧ subscription ∈ db.subscriptions ∧ subscription.id = subscriptionId ∧
        subscription.applicationId = application.id := by
  unfold getSubscription
  apply Program.Spec.readThen
  split
  next => exact .of_raise trivial
  next subscription found =>
    have same := List.find?_some found
    rw [Bool.and_eq_true, decide_eq_true_eq, decide_eq_true_eq] at same
    exact .of_pure ⟨rfl, List.mem_of_find?_eq_some found, same.1, same.2⟩

theorem flushSubscription_deliveries (before after : WebhookSubscription) (db : Database) :
    (flushSubscription before after).Ensures db fun _ db' => db'.deliveries = db.deliveries := by
  unfold flushSubscription
  split
  next => exact .of_pure rfl
  next =>
    apply Program.Spec.of_write
    split
    next => exact .of_pure rfl
    next => exact .of_raise trivial

theorem insertSubscription_deliveries (subscription : WebhookSubscription) (db : Database) :
    (insertSubscription subscription).Ensures db fun _ after =>
      after.deliveries = db.deliveries := by
  unfold insertSubscription
  apply Program.Spec.of_write
  split
  next => exact .of_raise trivial
  next =>
    split
    next => exact .of_pure rfl
    next => exact .of_raise trivial

theorem createSubscription_deliveries (validateUrl : String → Except String String)
    (application : Application) (url : String) (events : List String) (id : Uuid)
    (secret : String) (now : Time) (db : Database) :
    (createSubscription validateUrl application url events id secret now).Ensures db
      fun _ after => after.deliveries = db.deliveries := by
  unfold createSubscription listSubscriptions
  apply Program.Spec.requireThen
  · intro _
    apply Program.Spec.readThen
    apply Program.Spec.requireThen
    · intro _
      cases validateUrl url with
      | error message => exact .of_raise trivial
      | ok url =>
          apply (insertSubscription_deliveries _ db).bind
          intro _ _ same
          exact .of_pure same
    · intro _
      trivial
  · intro _
    trivial

theorem revokeSubscription_deliveries (application : Application) (subscriptionId : Uuid)
    (now : Time) (db : Database) :
    (revokeSubscription application subscriptionId now).Ensures db
      fun _ after => after.deliveries = db.deliveries := by
  unfold revokeSubscription
  apply (getSubscription_spec application subscriptionId db).bind
  rintro subscription after ⟨rfl, -⟩
  split
  next =>
    apply (flushSubscription_deliveries _ _ _).bind
    intro _ _ same
    exact .of_pure same
  next => exact .of_pure rfl

theorem rotateSecret_deliveries (application : Application) (subscriptionId : Uuid)
    (secret : String) (grace now : Time) (db : Database) :
    (rotateSecret application subscriptionId secret grace now).Ensures db
      fun _ after => after.deliveries = db.deliveries := by
  unfold rotateSecret
  apply (getSubscription_spec application subscriptionId db).bind
  rintro subscription after ⟨rfl, -⟩
  apply (flushSubscription_deliveries _ _ _).bind
  intro _ _ same
  exact .of_pure same

theorem deleteSubscription_spec (application : Application) (subscriptionId : Uuid)
    (db : Database) :
    (deleteSubscription application subscriptionId).Ensures db fun _ after =>
      after = db.withoutSubscription subscriptionId := by
  unfold deleteSubscription
  apply (getSubscription_spec application subscriptionId db).bind
  rintro subscription after ⟨rfl, -⟩
  apply Program.Spec.requireThen
  · intro _
    exact .of_write (.of_pure rfl)
  · intro _
    trivial

/-! ## Replays -/

/-- The row as a replay leaves it that has loaded `copy`. -/
def WebhookDelivery.requeuedOver (copy : WebhookDelivery) (now : Time) :
    WebhookDelivery → WebhookDelivery :=
  copy.patch (copy.requeued now)

namespace WebhookDelivery

variable (copy : WebhookDelivery) (now : Time) (row : WebhookDelivery)

@[simp] theorem requeuedOver_id : (copy.requeuedOver now row).id = row.id := rfl

/-- What a replay does to a column: nothing where the object had it reset already. -/
theorem column_reset {α : Type} [DecidableEq α] (before reset stored : α) :
    column before reset stored = stored ∨ column before reset stored = reset := by
  unfold column
  split_ifs
  · exact .inl rfl
  · exact .inr rfl

theorem requeuedOver_attempts :
    (copy.requeuedOver now row).attempts = row.attempts ∨
      (copy.requeuedOver now row).attempts = 0 := column_reset ..

theorem requeuedOver_deliveredAt :
    (copy.requeuedOver now row).deliveredAt = row.deliveredAt ∨
      (copy.requeuedOver now row).deliveredAt = none := column_reset ..

theorem requeuedOver_abandonedAt :
    (copy.requeuedOver now row).abandonedAt = row.abandonedAt ∨
      (copy.requeuedOver now row).abandonedAt = none := column_reset ..

variable {row}

theorem requeuedOver_undelivered (undelivered : row.deliveredAt = none) :
    (copy.requeuedOver now row).deliveredAt = none :=
  (copy.requeuedOver_deliveredAt now row).elim (·.trans undelivered) fun reset => reset

theorem requeuedOver_kept (kept : row.abandonedAt = none) :
    (copy.requeuedOver now row).abandonedAt = none :=
  (copy.requeuedOver_abandonedAt now row).elim (·.trans kept) fun reset => reset

end WebhookDelivery

/-- The rows that a replay has loaded are queued again where they are stored, and no others
change. -/
structure Database.Requeues (db : Database) (copies : List WebhookDelivery) (now : Time)
    (after : Database) : Prop where
  keyed : after.DeliveriesKeyed
  rows : ∀ id, after.delivery? id =
    match KeyedRows.lookup WebhookDelivery.id copies id with
    | some copy => (db.delivery? id).map (copy.requeuedOver now)
    | none => db.delivery? id

/-- The rows a replay has loaded are stored, each once. -/
structure Database.Selects (db : Database) (rows : List WebhookDelivery) : Prop where
  nodup : (rows.map (·.id)).Nodup
  stored : ∀ row ∈ rows, db.delivery? row.id = some row

section Replays

variable {db : Database} (keyed : db.DeliveriesKeyed)

include keyed

theorem selectDelivery_spec (application : Application) (subscriptionId : Uuid)
    (deliveryId : DeliveryId) :
    (selectDelivery application subscriptionId deliveryId).Ensures db fun delivery after =>
      after = db ∧ db.Selects [delivery] := by
  unfold selectDelivery
  apply (getSubscription_spec application subscriptionId db).bind
  rintro subscription after ⟨rfl, -⟩
  apply Program.Spec.readThen
  split
  next => exact .of_raise trivial
  next delivery found =>
    refine .of_pure ⟨rfl, List.nodup_singleton _, fun row member => ?_⟩
    rw [List.mem_singleton.mp member]
    exact Database.delivery?_of_mem keyed (List.mem_of_find?_eq_some found)

theorem selectSince_spec (application : Application) (subscriptionId : Uuid) (since : Time) :
    (selectSince application subscriptionId since).Ensures db fun rows after =>
      after = db ∧ db.Selects rows := by
  unfold selectSince
  apply (getSubscription_spec application subscriptionId db).bind
  rintro subscription after ⟨rfl, -⟩
  have listed : (deliveriesSince after subscription.id since).Sublist after.deliveries :=
    List.filter_sublist
  refine Program.Spec.readThen (.of_pure ⟨rfl, ?_, fun row member => ?_⟩)
  · exact List.Nodup.sublist (listed.map (·.id)) keyed
  · exact Database.delivery?_of_mem keyed (listed.subset member)

/-- The loop over the loaded rows, which are distinct. -/
theorem requeueEach_spec (now : Time) {copies : List WebhookDelivery}
    (nodup : (copies.map (·.id)).Nodup) :
    (requeueEach copies now).Ensures db fun _ after => db.Requeues copies now after := by
  unfold requeueEach
  induction copies generalizing db with
  | nil => exact .of_pure ⟨keyed, fun _ => rfl⟩
  | cons copy copies ih =>
      rw [List.map_cons, List.nodup_cons] at nodup
      apply (flushDelivery_spec _ _ _).bind
      rintro _ middle ⟨-, rfl⟩
      have kept (row : WebhookDelivery) : (copy.requeuedOver now row).id = row.id := rfl
      apply (ih (keyed.update kept copy.id) nodup.2).weaken
      intro _ after rest
      refine ⟨rest.keyed, fun id => ?_⟩
      have first : (db.updateDelivery copy.id (copy.requeuedOver now)).delivery? id =
          if id = copy.id then (db.delivery? copy.id).map (copy.requeuedOver now)
          else db.delivery? id := Database.delivery?_updateDelivery kept db copy.id id
      rw [rest.rows, KeyedRows.lookup_cons]
      by_cases same : copy.id = id
      · subst same
        -- The other copies are of other rows.
        have absent : KeyedRows.lookup WebhookDelivery.id copies copy.id = none :=
          KeyedRows.lookup_eq_none.mpr fun other member same =>
            nodup.1 (same ▸ List.mem_map_of_mem member)
        rw [absent, if_pos rfl]
        exact first.trans (if_pos rfl)
      · rw [if_neg (Ne.symm same)] at first
        rw [if_neg same, first]

end Replays

/-! ## Attempts -/

namespace Webhooks

/-- The row as a lease leaves it. -/
def leased (delivery : WebhookDelivery) (now : Time) : WebhookDelivery :=
  { delivery with nextAttemptAt := some (now + lease) }

theorem leaseDelivery_run (id : DeliveryId) (now : Time) (db : Database) :
    (leaseDelivery id now).run db =
      if (db.delivery? id).any (due · now) then
        (.ok true, db.updateDelivery id (leased · now))
      else (.ok false, db) := by
  unfold leaseDelivery
  rw [Program.run_write]
  split <;> simp_all [Program.run, leased]

/-- The row as a load leaves it that finds the subscription revoked. -/
def dropped (delivery : WebhookDelivery) (now : Time) : WebhookDelivery :=
  { delivery with abandonedAt := some now, lastError := some "subscription revoked" }

theorem patch_dropped (delivery : WebhookDelivery) (now : Time) :
    delivery.patch (dropped delivery now) delivery = dropped delivery now := by
  simp [WebhookDelivery.patch, dropped]

/-- The load returns the stored row, or gives it up. -/
theorem loadDelivery_spec (id : DeliveryId) (now : Time) (db : Database) :
    (loadDelivery id now).Ensures db fun loading after =>
      ∃ delivery, db.delivery? id = some delivery ∧
        match loading with
        | .request copy _ => copy = delivery
        | .revoked => after = db.updateDelivery id (delivery.patch (dropped delivery now)) := by
  unfold loadDelivery
  apply Program.Spec.readThen
  split
  next => exact .of_raise trivial
  next delivery found =>
    apply Program.Spec.readThen
    split
    next =>
      apply (flushDelivery_spec _ _ _).bind
      rintro _ after ⟨-, rfl⟩
      refine .of_pure ⟨delivery, found, ?_⟩
      rw [(Database.delivery?_id found).1]
      rfl
    next subscription => exact .of_pure ⟨delivery, found, rfl⟩

section Settled

variable (delivery : WebhookDelivery) (answer : Answer) (now : Time)

@[simp] theorem settled_attempts :
    (settled delivery answer now).1.attempts = delivery.attempts + 1 := by
  unfold settled
  dsimp only
  split_ifs <;> rfl

theorem settled_deliveredAt :
    (settled delivery answer now).1.deliveredAt =
      if answer.error = none then some now else delivery.deliveredAt := by
  unfold settled
  dsimp only
  split_ifs <;> rfl

theorem settled_abandonedAt :
    (settled delivery answer now).1.abandonedAt =
      if answer.error ≠ none ∧ maxAttempts ≤ delivery.attempts + 1 then some now
      else delivery.abandonedAt := by
  unfold settled
  dsimp only
  split_ifs <;> simp_all

theorem settled_nextAttemptAt :
    (settled delivery answer now).1.nextAttemptAt =
      if answer.error = none ∨ maxAttempts ≤ delivery.attempts + 1 then none
      else some (now + backoff.getD (min (delivery.attempts + 1) backoff.length - 1) 0) := by
  by_cases accepted : answer.error = none
  · simp [settled, accepted]
  · by_cases last : maxAttempts ≤ delivery.attempts + 1
    · simp [settled, accepted, last]
    · simp [settled, accepted, last]

theorem settled_outcome :
    (settled delivery answer now).2 =
      if answer.error = none then .delivered
      else if maxAttempts ≤ delivery.attempts + 1 then .abandoned else .retry := by
  unfold settled
  dsimp only
  split_ifs <;> rfl

end Settled

theorem settled_ne (delivery : WebhookDelivery) (answer : Answer) (now : Time) :
    (settled delivery answer now).1 ≠ delivery := by
  intro same
  have attempts := settled_attempts delivery answer now
  rw [same] at attempts
  omega

theorem recordAttempt_spec (copy : WebhookDelivery) (answer : Answer) (now : Time)
    (db : Database) :
    (recordAttempt copy answer now).Ensures db fun outcome after =>
      (db.delivery? copy.id).isSome = true ∧ outcome = (settled copy answer now).2 ∧
        after = db.updateDelivery copy.id (copy.patch (settled copy answer now).1) := by
  unfold recordAttempt
  apply (flushDelivery_spec _ _ _).bind
  rintro _ after ⟨stored, rfl⟩
  exact .of_pure ⟨stored (settled_ne copy answer now), rfl, rfl⟩

theorem settleDeletedApplications_deliveries (now : Time) (db : Database) :
    (settleDeletedApplications now).Ensures db fun _ after =>
      after.deliveries = db.deliveries := by
  unfold settleDeletedApplications
  exact .of_write (.of_pure rfl)

end Webhooks

/-! ## Enqueuing -/

/-- A delivery as `enqueue_for_event` creates it. -/
structure WebhookDelivery.Fresh (delivery : WebhookDelivery) : Prop where
  attempts : delivery.attempts = 0
  deliveredAt : delivery.deliveredAt = none
  abandonedAt : delivery.abandonedAt = none

theorem enqueueForEvent_fresh (domain : Domain) (event : DomainEvent) (db : Database) :
    (enqueueForEvent domain event).Returns db fun _ after =>
      ∃ new : List WebhookDelivery, after.deliveries = db.deliveries ++ new ∧
        ∀ delivery ∈ new, delivery.Fresh := by
  unfold enqueueForEvent
  split
  next => exact .of_pure ⟨[], by simp⟩
  next eventType =>
    apply Program.Spec.of_select
    dsimp only
    split
    next => exact .of_pure ⟨[], by simp⟩
    next =>
      apply Program.Spec.of_write
      refine .of_pure ⟨_, rfl, ?_⟩
      intro delivery member
      obtain ⟨subscription, -, rfl⟩ := List.mem_map.mp member
      exact ⟨rfl, rfl, rfl⟩

end CustomDomain
