import CustomDomain.DomainService

/-!
# Webhook subscriptions and their deliveries

`app/services/webhooks.py`: what an application does with its subscriptions and
with the deliveries enqueued for them.  A subscription or delivery object is the
value the session holds; a flush writes the columns that changed on it.
-/

namespace CustomDomain

open Transaction

/-- The names of `WEBHOOK_EVENT_TYPES`. -/
def WebhookEventType.value : WebhookEventType → String
  | .ready => "domain.ready"
  | .attentionRequired => "domain.attention_required"
  | .recovered => "domain.recovered"
  | .deleted => "domain.deleted"

/-- `WEBHOOK_EVENT_TYPES`, in its order. -/
def webhookEventTypes : List WebhookEventType :=
  [.ready, .attentionRequired, .recovered, .deleted]

def secretPrefix : String := "whsec_"

def rotationGrace : Time := hours 24

def maxSubscriptions : Nat := 10

/-! ## Flushes -/

def WebhookSubscription.patch (before after stored : WebhookSubscription) :
    WebhookSubscription :=
  { stored with
    secret := column before.secret after.secret stored.secret
    previousSecret := column before.previousSecret after.previousSecret stored.previousSecret
    previousSecretExpiresAt := column before.previousSecretExpiresAt
      after.previousSecretExpiresAt stored.previousSecretExpiresAt
    revokedAt := column before.revokedAt after.revokedAt stored.revokedAt }

def WebhookDelivery.patch (before after stored : WebhookDelivery) : WebhookDelivery :=
  { stored with
    attempts := column before.attempts after.attempts stored.attempts
    nextAttemptAt := column before.nextAttemptAt after.nextAttemptAt stored.nextAttemptAt
    deliveredAt := column before.deliveredAt after.deliveredAt stored.deliveredAt
    abandonedAt := column before.abandonedAt after.abandonedAt stored.abandonedAt
    lastAttemptAt := column before.lastAttemptAt after.lastAttemptAt stored.lastAttemptAt
    lastStatus := column before.lastStatus after.lastStatus stored.lastStatus
    lastError := column before.lastError after.lastError stored.lastError }

/-- `UPDATE webhook_subscriptions ...`. -/
def flushSubscription (before after : WebhookSubscription) : Sql Unit :=
  if after = before then .pure ()
  else
    .write
      (fun _ => [.subscription before.id])
      (fun _ db => db.updateSubscription before.id (WebhookSubscription.patch before after))
      fun view => if (view.subscription? before.id).isSome then .pure () else .raise .staleData

/-- `UPDATE webhook_deliveries ...`. -/
def flushDelivery (before after : WebhookDelivery) : Sql Unit :=
  if after = before then .pure ()
  else
    .write
      (fun _ => [.delivery before.id])
      (fun _ db => db.updateDelivery before.id (WebhookDelivery.patch before after))
      fun view => if (view.delivery? before.id).isSome then .pure () else .raise .staleData

/-! ## Subscriptions -/

/-- `ORDER BY created_at`. -/
def WebhookSubscription.before (first second : WebhookSubscription) : Prop :=
  first.createdAt ≤ second.createdAt

instance : DecidableRel WebhookSubscription.before :=
  fun first second => inferInstanceAs (Decidable (first.createdAt ≤ second.createdAt))

/-- `list_subscriptions`. -/
def listSubscriptions (application : Application) : Sql (List WebhookSubscription) :=
  .read fun view =>
    (view.subscriptions.filter fun subscription =>
      subscription.applicationId = application.id).insertionSort WebhookSubscription.before

/-- `get_subscription`: another application's subscription is not found. -/
def getSubscription (application : Application) (subscriptionId : Uuid) :
    Sql WebhookSubscription := do
  let found ← .read fun view => view.subscriptions.find? fun subscription =>
    decide (subscription.id = subscriptionId) &&
      decide (subscription.applicationId = application.id)
  match found with
  | none => .raise .webhookNotFound
  | some subscription => pure subscription

/-- Names that are no event type, each once and in order. -/
def unknownEvents (events : List String) : List String :=
  (events.dedup.filter fun event =>
    !(webhookEventTypes.map WebhookEventType.value).contains event).insertionSort (· ≤ ·)

/-- `sorted(set(events))`, for events that are all known. -/
def sortedEvents (events : List String) : List WebhookEventType :=
  [WebhookEventType.attentionRequired, .deleted, .ready, .recovered].filter fun event =>
    events.contains event.value

/-- Why `create_subscription` refuses a list of events. -/
def eventsRefusal (events : List String) : String :=
  let unknown := unknownEvents events
  "events must be a non-empty subset of " ++
    String.intercalate ", " (webhookEventTypes.map WebhookEventType.value) ++
    (if unknown.isEmpty then "" else "; unknown: " ++ String.intercalate ", " unknown)

def insertSubscription (subscription : WebhookSubscription) : Sql Unit :=
  .write
    (fun _ => [.subscription subscription.id])
    (fun _ db => { db with subscriptions := db.subscriptions ++ [subscription] })
    fun view =>
      if (view.subscription? subscription.id).isSome then
        .raise (.integrityError "pk_webhook_subscriptions")
      else if (view.application? subscription.applicationId).isSome then .pure ()
      else .raise (.integrityError "fk_webhook_subscriptions_application_id_applications")

/-- `create_subscription`.  `validateUrl` is `validate_url` with the DNS answers
of the moment; the identifier and the secret are drawn by the caller. -/
def createSubscription (validateUrl : String → Except String String) (application : Application)
    (url : String) (events : List String) (id : Uuid) (secret : String) (now : Time) :
    Sql WebhookSubscription := do
  Program.require (events ≠ [] ∧ unknownEvents events = [])
    (.invalidWebhook (eventsRefusal events))
  let subscriptions ← listSubscriptions application
  Program.require ((subscriptions.filter (·.isActive)).length < maxSubscriptions)
    (.invalidWebhook "At most 10 active webhooks per application")
  match validateUrl url with
  | .error message => .raise (.invalidWebhook message)
  | .ok url =>
      let subscription : WebhookSubscription :=
        { id := id
          applicationId := application.id
          url := url
          events := sortedEvents events
          secret := secretPrefix ++ secret
          createdAt := now }
      insertSubscription subscription
      pure subscription

/-- `revoke_subscription`. -/
def revokeSubscription (application : Application) (subscriptionId : Uuid) (now : Time) :
    Sql WebhookSubscription := do
  let subscription ← getSubscription application subscriptionId
  if subscription.revokedAt.isNone then
    let after := { subscription with revokedAt := some now }
    flushSubscription subscription after
    pure after
  else
    pure subscription

/-- The rows without a subscription and its deliveries. -/
def Database.withoutSubscription (db : Database) (subscriptionId : Uuid) : Database :=
  { db with
    subscriptions := db.subscriptions.filter fun subscription => subscription.id ≠ subscriptionId
    deliveries := db.deliveries.filter fun delivery => delivery.subscriptionId ≠ subscriptionId }

/-- `delete_subscription`: a revoked webhook goes with its delivery history. -/
def deleteSubscription (application : Application) (subscriptionId : Uuid) : Sql Unit := do
  let subscription ← getSubscription application subscriptionId
  Program.require (subscription.revokedAt ≠ none)
    (.invalidWebhook "Revoke the webhook before deleting it")
  .write
    (fun view => .subscription subscriptionId ::
      (view.deliveries.filter fun delivery =>
        delivery.subscriptionId = subscriptionId).map fun delivery => .delivery delivery.id)
    (fun _ db => db.withoutSubscription subscriptionId)
    fun _ => .pure ()

/-- `rotate_secret`. -/
def rotateSecret (application : Application) (subscriptionId : Uuid) (secret : String)
    (grace now : Time) : Sql WebhookSubscription := do
  let subscription ← getSubscription application subscriptionId
  let after :=
    { subscription with
      previousSecret := some subscription.secret
      previousSecretExpiresAt := some (now + grace)
      secret := secretPrefix ++ secret }
  flushSubscription subscription after
  pure after

/-- `signing_secrets`. -/
def signingSecrets (subscription : WebhookSubscription) (now : Time) : List String :=
  match subscription.previousSecret, subscription.previousSecretExpiresAt with
  | some previous, some expiresAt =>
      if previous ≠ "" ∧ now < expiresAt then [subscription.secret, previous]
      else [subscription.secret]
  | _, _ => [subscription.secret]

/-! ## Deliveries -/

/-- The filters of `list_deliveries`. -/
inductive DeliveryState where
  | pending
  | delivered
  | abandoned
  deriving DecidableEq

/-- The `WHERE` clause of one filter. -/
def DeliveryState.selects : DeliveryState → WebhookDelivery → Bool
  | .delivered, delivery => delivery.deliveredAt.isSome
  | .abandoned, delivery => delivery.abandonedAt.isSome
  | .pending, delivery => delivery.deliveredAt.isNone && delivery.abandonedAt.isNone

/-- `ORDER BY created_at DESC, id`. -/
def WebhookDelivery.listedBefore (first second : WebhookDelivery) : Prop :=
  second.createdAt < first.createdAt ∨
    (first.createdAt = second.createdAt ∧
      (first.id.domainId < second.id.domainId ∨
        (first.id.domainId = second.id.domainId ∧ first.id.recordedAt ≤ second.id.recordedAt)))

instance : DecidableRel WebhookDelivery.listedBefore :=
  fun _ _ => inferInstanceAs (Decidable (_ ∨ _))

/-- The rows of a subscription that a filter selects, before paging. -/
def filteredDeliveries (db : Database) (subscriptionId : Uuid) (state : Option DeliveryState) :
    List WebhookDelivery :=
  db.deliveries.filter fun delivery =>
    decide (delivery.subscriptionId = subscriptionId) && state.all (·.selects delivery)

/-- `list_deliveries`. -/
def listDeliveries (application : Application) (subscriptionId : Uuid)
    (state : Option DeliveryState) (limit offset : Int) : Sql (List WebhookDelivery) := do
  let subscription ← getSubscription application subscriptionId
  .read fun view =>
    (((filteredDeliveries view subscription.id state).insertionSort
      WebhookDelivery.listedBefore).drop (max 0 offset).toNat).take (max 1 (min limit 200)).toNat

/-- A delivery queued again. -/
def WebhookDelivery.requeued (delivery : WebhookDelivery) (now : Time) : WebhookDelivery :=
  { delivery with
    deliveredAt := none, abandonedAt := none, attempts := 0, nextAttemptAt := some now }

/-- The `SELECT`s of `replay_delivery`. -/
def selectDelivery (application : Application) (subscriptionId : Uuid)
    (deliveryId : DeliveryId) : Sql WebhookDelivery := do
  let subscription ← getSubscription application subscriptionId
  let found ← .read fun view => view.deliveries.find? fun delivery =>
    decide (delivery.id = deliveryId) && decide (delivery.subscriptionId = subscription.id)
  match found with
  | none => .raise .deliveryNotFound
  | some delivery => pure delivery

/-- The `UPDATE`s of a replay, with the columns that it changes on the rows as they were
loaded. -/
def requeueEach (rows : List WebhookDelivery) (now : Time) : Sql Unit :=
  Program.foldEach rows () fun _ delivery => flushDelivery delivery (delivery.requeued now)

/-- `replay_delivery`. -/
def replayDelivery (application : Application) (subscriptionId : Uuid) (deliveryId : DeliveryId)
    (now : Time) : Sql WebhookDelivery := do
  let delivery ← selectDelivery application subscriptionId deliveryId
  requeueEach [delivery] now
  pure (delivery.requeued now)

/-- The deliveries of a subscription created at or after a time. -/
def deliveriesSince (db : Database) (subscriptionId : Uuid) (since : Time) :
    List WebhookDelivery :=
  db.deliveries.filter fun delivery =>
    decide (delivery.subscriptionId = subscriptionId) && decide (since ≤ delivery.createdAt)

/-- The `SELECT`s of `replay_since`. -/
def selectSince (application : Application) (subscriptionId : Uuid) (since : Time) :
    Sql (List WebhookDelivery) := do
  let subscription ← getSubscription application subscriptionId
  .read fun view => deliveriesSince view subscription.id since

/-- `replay_since`. -/
def replaySince (application : Application) (subscriptionId : Uuid) (since now : Time) :
    Sql Nat := do
  let rows ← selectSince application subscriptionId since
  requeueEach rows now
  pure rows.length

end CustomDomain
