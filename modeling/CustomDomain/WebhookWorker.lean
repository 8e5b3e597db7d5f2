import CustomDomain.WebhookService

/-!
# The webhook worker

`app/webhooks/worker.py`.  An attempt is a lease, a load, a request and a final
update; the lease, the load and the update are transactions of their own, and
no transaction is open while the request is in flight.  The final update is made
from the object the load returned, which the session keeps after a commit.
-/

namespace CustomDomain.Webhooks

open Transaction

def backoff : List Time :=
  [minutes 1, minutes 5, minutes 30, hours 2, hours 12, hours 24]

def maxAttempts : Nat := 8

def lease : Time := minutes 2

/-- `_due`. -/
def due (delivery : WebhookDelivery) (now : Time) : Bool :=
  delivery.deliveredAt.isNone && delivery.abandonedAt.isNone &&
    delivery.nextAttemptAt.any fun at_ => decide (at_ ≤ now)

/-- `ORDER BY next_attempt_at, id`. -/
def attemptedBefore (first second : WebhookDelivery) : Prop :=
  first.nextAttemptAt.getD 0 < second.nextAttemptAt.getD 0 ∨
    (first.nextAttemptAt.getD 0 = second.nextAttemptAt.getD 0 ∧
      (first.id.subscriptionId < second.id.subscriptionId ∨
        (first.id.subscriptionId = second.id.subscriptionId ∧
          (first.id.domainId < second.id.domainId ∨
            (first.id.domainId = second.id.domainId ∧
              first.id.recordedAt ≤ second.id.recordedAt)))))

instance : DecidableRel attemptedBefore := fun _ _ => inferInstanceAs (Decidable (_ ∨ _))

/-- `due_delivery_ids`. -/
def dueDeliveryIds (now : Time) (limit : Nat) : Sql (List DeliveryId) :=
  .read fun view =>
    (((view.deliveries.filter (due · now)).insertionSort attemptedBefore).take limit).map (·.id)

/-- `lease_delivery`: the time of the next attempt doubles as the lease. -/
def leaseDelivery (id : DeliveryId) (now : Time) : Sql Bool :=
  .write
    (fun view => if (view.delivery? id).any (due · now) then [.delivery id] else [])
    (fun view db =>
      if (view.delivery? id).any (due · now) then
        db.updateDelivery id fun delivery => { delivery with nextAttemptAt := some (now + lease) }
      else db)
    fun view => .pure ((view.delivery? id).any (due · now))

/-- What an attempt sends; the body is the snapshot taken when the event was
recorded. -/
structure Request where
  url : String
  body : DomainEvent × WebhookEventType × Domain
  secrets : List String
  timestamp : Int
  deliveryId : DeliveryId
  attempt : Nat

def composeRequest (delivery : WebhookDelivery) (subscription : WebhookSubscription)
    (now : Time) : Request where
  url := subscription.url
  body := (delivery.event, delivery.eventType, delivery.domain)
  secrets := signingSecrets subscription now
  timestamp := now / seconds 1
  deliveryId := delivery.id
  attempt := delivery.attempts + 1

/-- What comes of the load: the object and the request, or the delivery is
given up because its subscription is revoked. -/
inductive Loading where
  | request (delivery : WebhookDelivery) (request : Request)
  | revoked

/-- The second transaction of `attempt_delivery`. -/
def loadDelivery (id : DeliveryId) (now : Time) : Sql Loading := do
  let found ← .read fun view => view.delivery? id
  match found with
  | none => .raise .staleData
  | some delivery =>
      let subscription ← .read fun view => view.subscription? delivery.subscriptionId
      match subscription.filter (·.isActive) with
      | none =>
          flushDelivery delivery
            { delivery with
              abandonedAt := some now, lastError := some "subscription revoked" }
          pure .revoked
      | some subscription => pure (.request delivery (composeRequest delivery subscription now))

/-- What the sender returns or raises. -/
inductive Answer where
  | status (code : Int) (text : String)
  | raised (error : String)
  deriving DecidableEq

def shortened (text : String) (length : Nat) : String :=
  String.ofList (text.toList.take length)

/-- The error of an answer; a 2xx has none. -/
def Answer.error : Answer → Option String
  | .status code text =>
      if 200 ≤ code ∧ code < 300 then none
      else some ("HTTP " ++ toString code ++ ": " ++ shortened text 200)
  | .raised error => some (shortened error 500)

def Answer.code : Answer → Option Int
  | .status code _ => some code
  | .raised _ => none

/-- What `attempt_delivery` returns. -/
inductive Outcome where
  | skipped
  | delivered
  | retry
  | abandoned
  deriving DecidableEq

/-- The object after the answer, and how the attempt ended. -/
def settled (delivery : WebhookDelivery) (answer : Answer) (now : Time) :
    WebhookDelivery × Outcome :=
  let attempts := delivery.attempts + 1
  let tried :=
    { delivery with
      attempts := attempts
      lastAttemptAt := some now
      lastStatus := answer.code
      lastError := answer.error }
  if answer.error = none then
    ({ tried with deliveredAt := some now, nextAttemptAt := none }, .delivered)
  else if maxAttempts ≤ attempts then
    ({ tried with abandonedAt := some now, nextAttemptAt := none }, .abandoned)
  else
    ({ tried with
        nextAttemptAt := some (now + backoff.getD (min attempts backoff.length - 1) 0) }, .retry)

/-- The last transaction of `attempt_delivery`. -/
def recordAttempt (delivery : WebhookDelivery) (answer : Answer) (now : Time) : Sql Outcome := do
  flushDelivery delivery (settled delivery answer now).1
  pure (settled delivery answer now).2

/-- `settle_deleted_applications`: the webhooks of deleted applications are
revoked once none of their deliveries is pending. -/
def settleDeletedApplications (now : Time) : Sql Nat :=
  let settles (view : Database) (subscription : WebhookSubscription) : Bool :=
    subscription.isActive &&
      ((view.application? subscription.applicationId).any fun application =>
        application.deletedAt.isSome) &&
      !view.deliveries.any fun delivery =>
        decide (delivery.subscriptionId = subscription.id) &&
          DeliveryState.pending.selects delivery
  .write
    (fun view => (view.subscriptions.filter (settles view)).map fun subscription =>
      .subscription subscription.id)
    (fun view db =>
      { db with
        subscriptions := db.subscriptions.map fun subscription =>
          if settles view subscription then { subscription with revokedAt := some now }
          else subscription })
    fun view => .pure (view.subscriptions.filter (settles view)).length

end CustomDomain.Webhooks
