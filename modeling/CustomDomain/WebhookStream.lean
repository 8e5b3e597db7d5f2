import CustomDomain.AuditSafety
import CustomDomain.WebhookAttempts

/-!
# The webhook stream of a domain

The consumers of an application see the events of a domain through the
deliveries enqueued for them.  The webhook types of a domain's trail are a word
of the webhook language, and recording an event creates one delivery for each
subscription that wants it and no other.
-/

namespace CustomDomain

open Transaction EventHistory Webhooks

/-! ## What is enqueued -/

/-- The deliveries created with some events, in the order they were recorded. -/
inductive Emits (subscriptions : List WebhookSubscription) :
    List DomainEvent → List WebhookDelivery → Prop
  | nil : Emits subscriptions [] []
  | cons {domain : Domain} {event : DomainEvent} {recorded : List DomainEvent}
      {created : List WebhookDelivery} (owner : domain.applicationId = event.applicationId)
      (rest : Emits subscriptions recorded created) :
      Emits subscriptions (event :: recorded) (enqueued subscriptions domain event ++ created)

/-- Every delivery of `enqueue_for_event` is of the event, for a subscription
that wants it. -/
theorem mem_enqueued {subscriptions : List WebhookSubscription} {domain : Domain}
    {event : DomainEvent} (owner : domain.applicationId = event.applicationId)
    {delivery : WebhookDelivery} (member : delivery ∈ enqueued subscriptions domain event) :
    delivery.event = event ∧ ∃ subscription ∈ subscriptions,
      subscription.id = delivery.subscriptionId ∧ wants event subscription = true := by
  unfold enqueued at member
  split at member
  next => cases member
  next eventType typed =>
    obtain ⟨subscription, listed, rfl⟩ := List.mem_map.mp member
    rw [List.mem_filter] at listed
    refine ⟨rfl, subscription, listed.1, rfl, ?_⟩
    simpa [wants, typed, owner] using listed.2

/-- A subscription that wants the event has one delivery of it, the others none. -/
theorem countP_enqueued {subscriptions : List WebhookSubscription}
    (keyed : (subscriptions.map (·.id)).Nodup) {domain : Domain} {event : DomainEvent}
    (owner : domain.applicationId = event.applicationId) {subscription : WebhookSubscription}
    (stored : subscription ∈ subscriptions) :
    (enqueued subscriptions domain event).countP (fun delivery =>
      delivery.subscriptionId = subscription.id ∧ delivery.event = event) =
      if wants event subscription then 1 else 0 := by
  have alone := KeyedRows.filter_key_of_mem keyed stored
  unfold enqueued
  cases typed : webhookEventType event with
  | none => simp [wants, typed]
  | some eventType =>
      have counted : ∀ accepts : WebhookSubscription → Bool,
          (subscriptions.filter accepts).countP (fun other => other.id = subscription.id) =
            if accepts subscription then 1 else 0 := by
        intro accepts
        rw [List.countP_eq_length_filter, List.filter_comm, alone]
        cases accepted : accepts subscription <;> simp [accepted]
      rw [List.countP_map]
      simpa [Function.comp_def, wants, typed, owner] using counted fun other =>
        decide (other.applicationId = domain.applicationId) && other.revokedAt.isNone &&
          decide (eventType ∈ other.events)

namespace Emits

variable {subscriptions : List WebhookSubscription} {recorded : List DomainEvent}
  {created : List WebhookDelivery}

theorem append {later : List DomainEvent} {more : List WebhookDelivery}
    (first : Emits subscriptions recorded created) (second : Emits subscriptions later more) :
    Emits subscriptions (recorded ++ later) (created ++ more) := by
  induction first with
  | nil => exact second
  | cons owner _ ih =>
      rw [List.cons_append, List.append_assoc]
      exact .cons owner ih

theorem only (emits : Emits subscriptions recorded created) :
    ∀ delivery ∈ created, delivery.event ∈ recorded ∧ ∃ subscription ∈ subscriptions,
      subscription.id = delivery.subscriptionId ∧ wants delivery.event subscription = true := by
  induction emits with
  | nil => simp
  | cons owner _ ih =>
      intro delivery member
      rcases List.mem_append.mp member with here | later
      · obtain ⟨same, wanted⟩ := mem_enqueued owner here
        rw [same]
        exact ⟨by simp, wanted⟩
      · obtain ⟨told, wanted⟩ := ih delivery later
        exact ⟨by simp [told], wanted⟩

theorem once (emits : Emits subscriptions recorded created)
    (keyed : (subscriptions.map (·.id)).Nodup) (distinct : recorded.Nodup)
    {event : DomainEvent} (told : event ∈ recorded) {subscription : WebhookSubscription}
    (stored : subscription ∈ subscriptions) :
    created.countP (fun delivery =>
      delivery.subscriptionId = subscription.id ∧ delivery.event = event) =
      if wants event subscription then 1 else 0 := by
  induction emits with
  | nil => cases told
  | @cons domain first recorded created owner rest ih =>
      rw [List.nodup_cons] at distinct
      rw [List.countP_append]
      rcases List.mem_cons.mp told with rfl | later
      · have none : created.countP (fun delivery =>
            delivery.subscriptionId = subscription.id ∧ delivery.event = event) = 0 := by
          rw [List.countP_eq_zero]
          intro delivery member
          simp only [decide_eq_true_eq, not_and]
          rintro - rfl
          exact distinct.1 (rest.only delivery member).1
        rw [none, countP_enqueued keyed owner stored, Nat.add_zero]
      · have none : (enqueued subscriptions domain first).countP (fun delivery =>
            delivery.subscriptionId = subscription.id ∧ delivery.event = event) = 0 := by
          rw [List.countP_eq_zero]
          intro delivery member
          simp only [decide_eq_true_eq, not_and]
          rintro - same
          rw [(mem_enqueued owner member).1] at same
          exact distinct.1 (same ▸ later)
        rw [none, ih distinct.2 later, Nat.zero_add]

end Emits

/-- The log grew by events and the deliveries created with them. -/
structure Database.Grows (db after : Database) (recorded : List DomainEvent)
    (created : List WebhookDelivery) : Prop where
  events : after.events = db.events ++ recorded
  deliveries : after.deliveries = db.deliveries ++ created
  subscriptions : after.subscriptions = db.subscriptions
  emits : Emits db.subscriptions recorded created

theorem Database.Grows.trans {db middle after : Database} {recorded later : List DomainEvent}
    {created more : List WebhookDelivery} (first : db.Grows middle recorded created)
    (second : middle.Grows after later more) :
    db.Grows after (recorded ++ later) (created ++ more) where
  events := by rw [second.events, first.events, List.append_assoc]
  deliveries := by rw [second.deliveries, first.deliveries, List.append_assoc]
  subscriptions := second.subscriptions.trans first.subscriptions
  emits := first.emits.append (first.subscriptions ▸ second.emits)

theorem Database.SameLog.grows {db after : Database} (same : db.SameLog after) :
    db.Grows after [] [] where
  events := by rw [same.events, List.append_nil]
  deliveries := by rw [same.deliveries, List.append_nil]
  subscriptions := same.subscriptions
  emits := .nil

theorem Database.grows_recorded (db : Database) (domain : Domain) (payload : EventPayload)
    (now : Time) :
    let event : DomainEvent := ⟨domain.id, domain.applicationId, payload, db.stamp domain.id now⟩
    db.Grows (db.recorded domain payload now) [event] (enqueued db.subscriptions domain event) where
  events := rfl
  deliveries := rfl
  subscriptions := rfl
  emits := by
    rw [← List.append_nil (enqueued _ _ _)]
    exact .cons rfl .nil

theorem Logs.grows {id applicationId : Uuid} {now : Time} {db after : Database}
    {payloads : List EventPayload} (logs : Logs id applicationId now db payloads after) :
    ∃ recorded created, db.Grows after recorded created := by
  induction logs with
  | quiet same => exact ⟨[], [], same.grows⟩
  | @entry db middle after domain payloads same here owner payload rest ih =>
      obtain ⟨recorded, created, grows⟩ := ih
      exact ⟨_, _, (same.grows.trans (middle.grows_recorded domain payload now)).trans grows⟩

theorem AuditStep.grows {decided : Prop} {now : Time} {db after : Database}
    (step : AuditStep decided now db after) :
    ∃ recorded created, db.Grows after recorded created := by
  cases step with
  | quiet same domains => exact ⟨[], [], same.grows⟩
  | told member told holds =>
      obtain ⟨payloads, logs, -⟩ := told.entries
      exact logs.grows
  | registered adds unused logs history ends streak => exact logs.grows

theorem auditSteps_grow {decided : Prop} {now : Time} {db after : Database}
    (steps : AuditSteps decided now db after) :
    ∃ recorded created, db.Grows after recorded created := by
  induction steps with
  | refl => exact ⟨[], [], (Database.SameLog.refl db).grows⟩
  | tail _ step ih =>
      obtain ⟨recorded, created, grows⟩ := ih
      obtain ⟨later, more, grown⟩ := step.grows
      exact ⟨_, _, grows.trans grown⟩

/-! ## The webhook operations -/

/-- The transactions of the webhook API and of its worker. -/
inductive WebhookOp where
  | subscription (op : SubscriptionOp) (now : Time)
  | deleteSubscription (application : Application) (subscriptionId : Uuid)
  | replayDelivery (application : Application) (subscriptionId : Uuid) (id : DeliveryId)
      (now : Time)
  | replaySince (application : Application) (subscriptionId : Uuid) (since now : Time)
  | leaseDelivery (id : DeliveryId) (now : Time)
  | loadDelivery (id : DeliveryId) (now : Time)
  | recordAttempt (copy : WebhookDelivery) (answer : Answer) (now : Time)

def WebhookOp.program : WebhookOp → Sql Unit
  | .subscription op now => op.program now
  | .deleteSubscription application subscriptionId =>
      CustomDomain.deleteSubscription application subscriptionId
  | .replayDelivery application subscriptionId id now => do
      let _ ← CustomDomain.replayDelivery application subscriptionId id now
  | .replaySince application subscriptionId since now => do
      let _ ← CustomDomain.replaySince application subscriptionId since now
  | .leaseDelivery id now => do
      let _ ← Webhooks.leaseDelivery id now
  | .loadDelivery id now => do
      let _ ← Webhooks.loadDelivery id now
  | .recordAttempt copy answer now => do
      let _ ← Webhooks.recordAttempt copy answer now

/-- Nothing but the webhook tables changed, and no delivery was created. -/
structure Database.Tends (db after : Database) : Prop where
  applications : after.applications = db.applications
  origins : after.origins = db.origins
  domains : after.domains = db.domains
  events : after.events = db.events
  deliveries : (after.deliveries.map (·.id)).Sublist (db.deliveries.map (·.id))
  keyed : (db.subscriptions.map (·.id)).Nodup → (after.subscriptions.map (·.id)).Nodup

theorem Database.Tends.refl (db : Database) : db.Tends db :=
  ⟨rfl, rfl, rfl, rfl, .refl _, id⟩

theorem Database.Tends.trans {db middle after : Database} (first : db.Tends middle)
    (second : middle.Tends after) : db.Tends after where
  applications := second.applications.trans first.applications
  origins := second.origins.trans first.origins
  domains := second.domains.trans first.domains
  events := second.events.trans first.events
  deliveries := second.deliveries.trans first.deliveries
  keyed := second.keyed ∘ first.keyed

section Tends

variable (db : Database)

theorem updateDelivery_tends {change : WebhookDelivery → WebhookDelivery}
    (kept : ∀ row, (change row).id = row.id) (id : DeliveryId) :
    db.Tends (db.updateDelivery id change) where
  applications := rfl
  origins := rfl
  domains := rfl
  events := rfl
  deliveries := by
    rw [show (db.updateDelivery id change).deliveries.map (·.id) = db.deliveries.map (·.id) from
      KeyedRows.keys_update kept]
  keyed := fun keyed => keyed

theorem updateSubscription_tends {change : WebhookSubscription → WebhookSubscription}
    (kept : ∀ row, (change row).id = row.id) (id : Uuid) :
    db.Tends (db.updateSubscription id change) where
  applications := rfl
  origins := rfl
  domains := rfl
  events := rfl
  deliveries := .refl _
  keyed := by
    rw [show (db.updateSubscription id change).subscriptions.map (·.id) =
      db.subscriptions.map (·.id) from KeyedRows.keys_update kept]
    exact fun keyed => keyed

theorem flushDelivery_tends (before after : WebhookDelivery) :
    (flushDelivery before after).Ensures db fun _ last => db.Tends last := by
  apply (flushDelivery_spec before after db).weaken
  rintro _ last ⟨-, rfl⟩
  exact updateDelivery_tends db (before.patch_id after) before.id

theorem flushSubscription_tends (before after : WebhookSubscription) :
    (flushSubscription before after).Ensures db fun _ last => db.Tends last := by
  unfold flushSubscription
  split
  next => exact .of_pure (.refl db)
  next =>
    apply Program.Spec.of_write
    split
    next =>
      have kept : ∀ row, (before.patch after row).id = row.id := fun _ => rfl
      exact .of_pure (updateSubscription_tends db kept before.id)
    next => exact .of_raise trivial

theorem insertSubscription_tends (subscription : WebhookSubscription) :
    (insertSubscription subscription).Ensures db fun _ last => db.Tends last := by
  unfold insertSubscription
  apply Program.Spec.of_write
  split
  next => exact .of_raise trivial
  next unused =>
    split
    next =>
      refine .of_pure ⟨rfl, rfl, rfl, rfl, .refl _, fun keyed => ?_⟩
      rw [Option.not_isSome_iff_eq_none] at unused
      rw [List.map_append, List.map_singleton, ← List.concat_eq_append]
      refine List.Nodup.concat ?_ keyed
      intro member
      obtain ⟨row, present, same⟩ := List.mem_map.mp member
      exact absurd same (KeyedRows.lookup_eq_none.mp unused row present)
    next => exact .of_raise trivial

theorem createSubscription_tends (validateUrl : String → Except String String)
    (application : Application) (url : String) (events : List String) (id : Uuid)
    (secret : String) (now : Time) :
    (createSubscription validateUrl application url events id secret now).Ensures db
      fun _ last => db.Tends last := by
  unfold createSubscription listSubscriptions
  refine .requireThen (fun _ => ?_) fun _ => trivial
  apply Program.Spec.readThen
  refine .requireThen (fun _ => ?_) fun _ => trivial
  cases validateUrl url with
  | error message => exact .of_raise trivial
  | ok url =>
      apply (insertSubscription_tends db _).bind
      exact fun _ _ tends => .of_pure tends

theorem SubscriptionOp.program_tends (op : SubscriptionOp) (now : Time) :
    (op.program now).Ensures db fun _ last => db.Tends last := by
  cases op with
  | create validateUrl application url events id secret =>
      apply (createSubscription_tends db validateUrl application url events id secret now).bind
      exact fun _ _ tends => .of_pure tends
  | revoke application subscriptionId =>
      have spec : (revokeSubscription application subscriptionId now).Ensures db
          fun _ last => db.Tends last := by
        unfold revokeSubscription
        apply (getSubscription_spec application subscriptionId db).bind
        rintro subscription _ ⟨rfl, -⟩
        split
        next =>
          apply (flushSubscription_tends _ _ _).bind
          exact fun _ _ tends => .of_pure tends
        next => exact .of_pure (.refl _)
      exact spec.bind fun _ _ tends => .of_pure tends
  | rotate application subscriptionId secret grace =>
      have spec : (rotateSecret application subscriptionId secret grace now).Ensures db
          fun _ last => db.Tends last := by
        unfold rotateSecret
        apply (getSubscription_spec application subscriptionId db).bind
        rintro subscription _ ⟨rfl, -⟩
        apply (flushSubscription_tends _ _ _).bind
        exact fun _ _ tends => .of_pure tends
      exact spec.bind fun _ _ tends => .of_pure tends
  | settleDeleted =>
      have spec : (settleDeletedApplications now).Ensures db fun _ last => db.Tends last := by
        unfold settleDeletedApplications
        refine .of_write (.of_pure ⟨rfl, rfl, rfl, rfl, .refl _, fun keyed => ?_⟩)
        rw [List.map_map]
        convert keyed using 2
        funext subscription
        simp only [Function.comp_apply]
        split <;> rfl
      exact spec.bind fun _ _ tends => .of_pure tends

theorem selectDelivery_unchanged (application : Application) (subscriptionId : Uuid)
    (id : DeliveryId) :
    (selectDelivery application subscriptionId id).Ensures db fun _ last => last = db := by
  unfold selectDelivery
  apply (getSubscription_spec application subscriptionId db).bind
  rintro subscription _ ⟨rfl, -⟩
  apply Program.Spec.readThen
  split
  next => exact .of_raise trivial
  next => exact .of_pure rfl

theorem selectSince_unchanged (application : Application) (subscriptionId : Uuid) (since : Time) :
    (selectSince application subscriptionId since).Ensures db fun _ last => last = db := by
  unfold selectSince
  apply (getSubscription_spec application subscriptionId db).bind
  rintro subscription _ ⟨rfl, -⟩
  exact Program.Spec.readThen (.of_pure rfl)

theorem requeueEach_tends (rows : List WebhookDelivery) (now : Time) :
    (requeueEach rows now).Ensures db fun _ last => db.Tends last := by
  refine Program.Spec.foldEach (W := store) (fun _ middle => db.Tends middle) (.refl _) ?_
  intro _ delivery middle _ tends
  apply (flushDelivery_tends middle _ _).weaken
  exact fun _ _ more => tends.trans more

theorem WebhookOp.program_tends (op : WebhookOp) :
    op.program.Ensures db fun _ last => db.Tends last := by
  cases op with
  | subscription op now => exact SubscriptionOp.program_tends db op now
  | deleteSubscription application subscriptionId =>
      apply (deleteSubscription_spec application subscriptionId db).weaken
      rintro _ last rfl
      exact ⟨rfl, rfl, rfl, rfl, List.filter_sublist.map _,
        fun keyed => keyed.sublist (List.filter_sublist.map _)⟩
  | replayDelivery application subscriptionId id now =>
      have spec : (CustomDomain.replayDelivery application subscriptionId id now).Ensures db
          fun _ last => db.Tends last := by
        unfold CustomDomain.replayDelivery
        apply (selectDelivery_unchanged db application subscriptionId id).bind
        rintro delivery _ rfl
        apply (requeueEach_tends _ _ _).bind
        exact fun _ _ tends => .of_pure tends
      exact spec.bind fun _ _ tends => .of_pure tends
  | replaySince application subscriptionId since now =>
      have spec : (CustomDomain.replaySince application subscriptionId since now).Ensures db
          fun _ last => db.Tends last := by
        unfold CustomDomain.replaySince
        apply (selectSince_unchanged db application subscriptionId since).bind
        rintro rows _ rfl
        apply (requeueEach_tends _ _ _).bind
        exact fun _ _ tends => .of_pure tends
      exact spec.bind fun _ _ tends => .of_pure tends
  | leaseDelivery id now =>
      have spec : (Webhooks.leaseDelivery id now).Ensures db fun _ last => db.Tends last := by
        apply Program.Spec.of_write
        split
        next =>
          have kept : ∀ row, (leased row now).id = row.id := fun _ => rfl
          exact .of_pure (updateDelivery_tends db kept id)
        next => exact .of_pure (.refl db)
      exact spec.bind fun _ _ tends => .of_pure tends
  | loadDelivery id now =>
      have spec : (Webhooks.loadDelivery id now).Ensures db fun _ last => db.Tends last := by
        unfold Webhooks.loadDelivery
        apply Program.Spec.readThen
        split
        next => exact .of_raise trivial
        next delivery found =>
          apply Program.Spec.readThen
          split
          next =>
            apply (flushDelivery_tends _ _ _).bind
            exact fun _ _ tends => .of_pure tends
          next => exact .of_pure (.refl _)
      exact spec.bind fun _ _ tends => .of_pure tends
  | recordAttempt copy answer now =>
      apply (recordAttempt_spec copy answer now db).bind
      rintro _ last ⟨-, -, rfl⟩
      exact .of_pure (updateDelivery_tends db (copy.patch_id _) copy.id)

end Tends

/-! ## Runs -/

/-- What the service and its webhooks do, each operation one transaction. -/
inductive SystemOp where
  | service (op : ServiceOp)
  | webhook (op : WebhookOp)

def SystemOp.run (environment : Environment) (db : Database) : SystemOp → Database
  | .service op => op.run environment db
  | .webhook op => op.program.transact db

/-- The state after a list of operations. -/
def runSystem (environment : Environment) (ops : List SystemOp) (db : Database) : Database :=
  ops.foldl (fun db op => op.run environment db) db

/-- The events that were recorded since `db`. -/
def Database.recordedSince (db after : Database) : List DomainEvent :=
  after.events.drop db.events.length

/-- The deliveries that were created since `db`. -/
def Database.createdSince (db after : Database) : List WebhookDelivery :=
  after.deliveries.drop db.deliveries.length

/-- What one operation adds to the log.  A purge drops trails as a whole, and
deliveries go with their subscription or application; nothing else is lost. -/
structure Database.Streams (db after : Database) : Prop where
  trail : ∀ domain ∈ after.domains, after.trail domain.id = db.trail domain.id ++
    (db.recordedSince after).filter fun event => event.domainId = domain.id
  kept : ((after.deliveries.take db.deliveries.length).map (·.id)).Sublist
    (db.deliveries.map (·.id))
  once : ∀ event ∈ db.recordedSince after, ∀ subscription ∈ db.subscriptions,
    (db.createdSince after).countP (fun delivery =>
      delivery.subscriptionId = subscription.id ∧ delivery.event = event) =
      if wants event subscription then 1 else 0
  only : ∀ delivery ∈ db.createdSince after, delivery.event ∈ db.recordedSince after ∧
    ∃ subscription ∈ db.subscriptions, subscription.id = delivery.subscriptionId ∧
      wants delivery.event subscription = true

/-- What holds of the stored rows at any time. -/
structure Database.InOrder (environment : Environment) (db : Database) : Prop where
  consistent : db.Consistent environment
  audited : db.Audited
  keyed : (db.subscriptions.map (·.id)).Nodup

theorem Database.inOrder_empty (environment : Environment) :
    ({} : Database).InOrder environment :=
  ⟨Database.consistent_empty environment, Database.audited_empty, List.nodup_nil⟩

/-- No event is recorded twice. -/
theorem Database.Audited.nodup {db : Database} (audited : db.Audited) : db.events.Nodup := by
  rw [List.nodup_iff_count_le_one]
  intro event
  by_cases recorded : event ∈ db.events
  · obtain ⟨domain, stored, id, -⟩ := audited.owners event recorded
    have distinct : (db.trail domain.id).Nodup :=
      (audited.trails domain stored).ordered.imp fun later same => by
        subst same
        exact lt_irrefl _ later
    have counted := List.nodup_iff_count_le_one.mp distinct event
    rwa [Database.trail, List.count_filter (by simp [id])] at counted
  · rw [List.count_eq_zero.mpr recorded]
    exact Nat.zero_le 1

theorem Database.Grows.streams {db after : Database} {recorded : List DomainEvent}
    {created : List WebhookDelivery} (grows : db.Grows after recorded created)
    (keyed : (db.subscriptions.map (·.id)).Nodup) (distinct : after.events.Nodup) :
    db.Streams after := by
  have events : db.recordedSince after = recorded := by
    rw [Database.recordedSince, grows.events, List.drop_left]
  have deliveries : db.createdSince after = created := by
    rw [Database.createdSince, grows.deliveries, List.drop_left]
  have apart : recorded.Nodup := by
    rw [grows.events] at distinct
    exact distinct.of_append_right
  constructor
  · intro domain _
    rw [events, Database.trail, grows.events, List.filter_append]
    rfl
  · rw [grows.deliveries, List.take_left]
  · intro event told subscription stored
    rw [events] at told
    rw [deliveries]
    exact grows.emits.once keyed apart told stored
  · rw [events, deliveries]
    exact grows.emits.only

/-- Nothing was recorded and nothing created. -/
theorem Database.streams_of_kept {db after : Database}
    (events : after.events.length ≤ db.events.length)
    (deliveries : (after.deliveries.map (·.id)).Sublist (db.deliveries.map (·.id)))
    (trail : ∀ domain ∈ after.domains, after.trail domain.id = db.trail domain.id) :
    db.Streams after := by
  have none : db.recordedSince after = [] := List.drop_eq_nil_iff.mpr events
  have fewer : after.deliveries.length ≤ db.deliveries.length := by
    simpa using deliveries.length_le
  have nothing : db.createdSince after = [] := List.drop_eq_nil_iff.mpr fewer
  constructor
  · intro domain stored
    rw [none, List.filter_nil, List.append_nil]
    exact trail domain stored
  · rw [List.take_of_length_le fewer]
    exact deliveries
  · simp [none]
  · simp [nothing]

section Steps

variable {environment : Environment} {db : Database} (inOrder : db.InOrder environment)

include inOrder

theorem ServiceOp.streams (op : ServiceOp) :
    db.Streams (op.run environment db) ∧ (op.run environment db).InOrder environment := by
  have consistent : (op.run environment db).Consistent environment :=
    inOrder.consistent.runAll [op]
  have audited := inOrder.audited.run inOrder.consistent op
  rcases op.audit inOrder.consistent with steps | ⟨now, rfl⟩
  · obtain ⟨recorded, created, grows⟩ := auditSteps_grow steps
    refine ⟨grows.streams inOrder.keyed audited.nodup, consistent, audited, ?_⟩
    rw [grows.subscriptions]
    exact inOrder.keyed
  · rw [ServiceOp.run_purge] at consistent audited ⊢
    refine ⟨Database.streams_of_kept (List.length_filter_le _ _) (List.filter_sublist.map _) ?_,
      consistent, audited, inOrder.keyed.sublist (List.filter_sublist.map _)⟩
    intro domain kept
    exact inOrder.audited.trail_purged inOrder.consistent now kept

theorem WebhookOp.streams (op : WebhookOp) :
    db.Streams (op.program.transact db) ∧ (op.program.transact db).InOrder environment := by
  have tends : db.Tends (op.program.transact db) :=
    (op.program_tends db).transact (.refl db)
  have trail : ∀ id, (op.program.transact db).trail id = db.trail id := by
    intro id
    rw [Database.trail, tends.events]
    rfl
  refine ⟨Database.streams_of_kept (by rw [tends.events]) tends.deliveries
    fun domain _ => trail domain.id, ?_, ⟨?_, ?_⟩, tends.keyed inOrder.keyed⟩
  · exact inOrder.consistent.congr tends.domains tends.applications tends.origins
  · rw [tends.domains]
    exact fun domain stored => (inOrder.audited.trails domain stored).congr (trail domain.id)
  · rw [tends.events, tends.domains]
    exact inOrder.audited.owners

theorem SystemOp.streams (op : SystemOp) :
    db.Streams (op.run environment db) ∧ (op.run environment db).InOrder environment := by
  cases op with
  | service op => exact op.streams inOrder
  | webhook op => exact op.streams inOrder

theorem Database.InOrder.runSystem (ops : List SystemOp) :
    (runSystem environment ops db).InOrder environment := by
  induction ops generalizing db with
  | nil => exact inOrder
  | cons op ops ih => exact ih (op.streams inOrder).2

end Steps

/-- The webhook types of a trail are a word of the language. -/
theorem Database.Audited.webhooks {db : Database} (audited : db.Audited) (id : Uuid) :
    WebhookLanguage ((db.trail id).filterMap webhookEventType) := by
  rcases empty : db.trail id with _ | ⟨event, events⟩
  · exact .nil
  · have recorded : event ∈ db.trail id := by simp [empty]
    unfold Database.trail at recorded
    rw [List.mem_filter, decide_eq_true_eq] at recorded
    obtain ⟨domain, stored, same, -⟩ := audited.owners event recorded.1
    obtain ⟨hostname, reference, payloads, told, history, -⟩ :=
      (audited.trails domain stored).told
    have types : (db.trail id).filterMap webhookEventType =
        ((db.trail domain.id).map (·.payload)).filterMap (·.webhookType) := by
      rw [List.filterMap_map, same.trans recorded.2]
      rfl
    rw [← empty, types, told, List.filterMap_cons_none rfl]
    exact history.webhooks

/-- In every reachable state the webhook types of every domain follow the
language, and whatever is done next creates the deliveries it should. -/
theorem webhook_stream (environment : Environment) (ops : List SystemOp) :
    (∀ id, WebhookLanguage
      (((runSystem environment ops {}).trail id).filterMap webhookEventType)) ∧
      ∀ op : SystemOp, (runSystem environment ops {}).Streams
        (op.run environment (runSystem environment ops {})) := by
  have inOrder := (Database.inOrder_empty environment).runSystem ops
  exact ⟨inOrder.audited.webhooks, fun op => (op.streams inOrder).1⟩

end CustomDomain
