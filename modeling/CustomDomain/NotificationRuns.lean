import CustomDomain.WebhookLeases
import CustomDomain.WebhookStream

/-!
# No notification is lost

The webhook workers and the webhook API beside the operations of the service.  A delivery that was
enqueued is tried until the consumer accepts it or has refused it `MAX_ATTEMPTS` times, unless its webhook
is revoked by hand or its application is purged: workers may crash or outlive their leases, deliveries may
be replayed, and applications may be deleted meanwhile.
-/

namespace CustomDomain.Webhooks

open Transaction

/-! ## What a trail tells -/

def Happening.isAnswer : Happening → Bool
  | .answered _ _ _ => true
  | _ => false

/-- The requests of the delivery that were answered. -/
def answers (trail : List Happening) : Nat := trail.countP (·.isAnswer)

/-- The consumer has accepted a request of the delivery. -/
def Accepted (trail : List Happening) : Prop :=
  ∃ ticket start, .answered ticket start true ∈ trail

/-- The consumer has accepted the delivery, or has refused it as often as it is tried. -/
def Finished (trail : List Happening) : Prop :=
  Accepted trail ∨ maxAttempts ≤ failures trail

theorem answers_append (trail more : List Happening) :
    answers (trail ++ more) = answers trail + answers more :=
  List.countP_append

theorem Accepted.append {trail : List Happening} (accepted : Accepted trail) (more : List Happening) :
    Accepted (trail ++ more) := by
  obtain ⟨ticket, start, member⟩ := accepted
  exact ⟨ticket, start, List.mem_append_left _ member⟩

theorem Finished.append {trail : List Happening} (finished : Finished trail) (more : List Happening) :
    Finished (trail ++ more) := by
  refine finished.imp (·.append more) fun refused => refused.trans ?_
  rw [failures, failures, List.countP_append]
  exact Nat.le_add_right _ _

/-- Every answer is an acceptance or a failure. -/
theorem finished_of_answers {trail : List Happening} (enough : maxAttempts ≤ answers trail) :
    Finished trail := by
  by_cases accepted : Accepted trail
  · exact .inl accepted
  · right
    refine enough.trans (List.countP_mono_left fun happening member answers => ?_)
    cases happening with
    | answered ticket start taken =>
        cases taken with
        | true => exact absurd ⟨ticket, start, member⟩ accepted
        | false => rfl
    | _ => cases answers

/-- What an object of the delivery says was heard of it. -/
structure Heard (trail : List Happening) (delivery : WebhookDelivery) : Prop where
  attempts : delivery.attempts ≤ answers trail
  delivered : delivery.deliveredAt ≠ none → Accepted trail

/-- What a worker knows of the delivery was heard of it. -/
def Phase.Heard (trail : List Happening) : Phase → Prop
  | .sending _ copy _ => Webhooks.Heard trail copy
  | .answered _ copy _ answer => Webhooks.Heard trail copy ∧ copy.attempts + 1 ≤ answers trail ∧
      (answer.error = none → Accepted trail)
  | _ => True

theorem Heard.append {trail : List Happening} {delivery : WebhookDelivery}
    (heard : Heard trail delivery) (more : List Happening) : Heard (trail ++ more) delivery where
  attempts := by
    rw [answers_append]
    exact heard.attempts.trans (Nat.le_add_right _ _)
  delivered delivered := (heard.delivered delivered).append more

theorem Phase.Heard.append {trail : List Happening} {phase : Phase} (heard : phase.Heard trail)
    (more : List Happening) : phase.Heard (trail ++ more) := by
  cases phase with
  | sending ticket copy now => exact Webhooks.Heard.append heard more
  | answered ticket copy now answer =>
      obtain ⟨copied, counted, accepted⟩ := heard
      refine ⟨copied.append more, ?_, fun fine => (accepted fine).append more⟩
      rw [answers_append]
      exact counted.trans (Nat.le_add_right _ _)
  | _ => trivial

section Tracks

variable {ι : Type} [DecidableEq ι] {revoked : Prop} {track after : Track ι}

/-- The row and the workers know what was heard of the delivery, and it is given up only when it is
finished or its webhook was revoked by hand. -/
structure Reported (revoked : Prop) (track : Track ι) : Prop where
  row : ∀ row, track.row = some row → Heard track.trail row
  abandoned : ∀ row, track.row = some row → row.abandonedAt ≠ none →
    Finished track.trail ∨ revoked
  phases : ∀ worker, (track.phase worker).Heard track.trail

omit [DecidableEq ι] in
theorem Reported.mono {revoked' : Prop} (reported : Reported revoked track) (grows : revoked → revoked') :
    Reported revoked' track :=
  ⟨reported.row, fun row stored given_up => (reported.abandoned row stored given_up).imp id grows, reported.phases⟩

theorem phases_put {trail : List Happening} (worker : ι) {phase : Phase}
    (phases : ∀ worker, (track.phase worker).Heard trail) (heard : phase.Heard trail) :
    ∀ other, ((track.put worker phase).phase other).Heard trail := by
  intro other
  by_cases same : other = worker
  · subst same
    simpa [Track.put] using heard
  · simpa [Track.put, same] using phases other

theorem phases_append {trail more : List Happening} (worker : ι) {phase : Phase}
    (phases : ∀ worker, (track.phase worker).Heard trail) (heard : phase.Heard (trail ++ more)) :
    ∀ other, ((track.put worker phase).phase other).Heard (trail ++ more) :=
  phases_put worker (fun worker => (phases worker).append more) heard

/-- An update that a worker makes when it has its answer. -/
theorem Heard.settled {trail : List Happening} {copy row : WebhookDelivery} {answer : Answer}
    {now : Time} (heard : Heard trail row) (counted : copy.attempts + 1 ≤ answers trail)
    (accepted : answer.error = none → Accepted trail) (more : List Happening) :
    Heard (trail ++ more) (copy.patch (settled copy answer now).1 row) := by
  refine Heard.append ⟨?_, fun delivered => ?_⟩ more
  · have changed : (copy.patch (Webhooks.settled copy answer now).1 row).attempts =
        copy.attempts + 1 := by
      unfold WebhookDelivery.patch column
      dsimp only
      rw [settled_attempts, if_neg (by omega)]
    rw [changed]
    exact counted
  · by_cases fine : answer.error = none
    · exact accepted fine
    · change column copy.deliveredAt (Webhooks.settled copy answer now).1.deliveredAt row.deliveredAt ≠
        none at delivered
      rw [settled_deliveredAt, if_neg fine, column, if_pos rfl] at delivered
      exact heard.delivered delivered

/-- A replay only resets what a row says was heard. -/
theorem Heard.requeuedOver {trail : List Happening} {row : WebhookDelivery} (heard : Heard trail row)
    (copy : WebhookDelivery) (now : Time) : Heard trail (copy.requeuedOver now row) where
  attempts := by
    rcases copy.requeuedOver_attempts now row with same | reset
    · rw [same]
      exact heard.attempts
    · rw [reset]
      exact Nat.zero_le _
  delivered delivered := heard.delivered fun undelivered =>
    delivered (copy.requeuedOver_undelivered now undelivered)

/-- A step keeps it, unless it gives up a pending delivery whose webhook was not revoked by hand. -/
theorem Reported.step {move : Move ι} (reported : Reported revoked track) (step : track.Step move after)
    (drops : ∀ worker row, move = .drop worker → track.row = some row → row.deliveredAt = none →
      row.abandonedAt = none → Finished track.trail ∨ revoked) :
    Reported revoked after := by
  cases step with
  | wait => exact ⟨reported.row, reported.abandoned, reported.phases⟩
  | create absent unheard still unselected fresh =>
      refine ⟨?_, ?_, reported.phases⟩
      · rintro row ⟨⟩
        exact ⟨fresh.attempts ▸ Nat.zero_le _, fun delivered => absurd fresh.deliveredAt delivered⟩
      · rintro row ⟨⟩ given_up
        exact absurd fresh.abandonedAt given_up
  | remove =>
      refine ⟨?_, ?_, reported.phases⟩
      · rintro row ⟨⟩
      · rintro row ⟨⟩
  | @lease worker id now row stored =>
      refine ⟨?_, ?_, ?_⟩
      · rintro _ ⟨⟩
        exact ⟨(reported.row row stored).attempts, (reported.row row stored).delivered⟩
      · rintro _ ⟨⟩
        exact reported.abandoned row stored
      · exact phases_put worker reported.phases trivial
  | @load worker id now row held stored =>
      have heard := (reported.row row stored).append [.sent now track.clock]
      refine ⟨?_, ?_, ?_⟩
      · intro other same
        cases stored.symm.trans same
        exact heard
      · intro other same given_up
        exact (reported.abandoned other same given_up).imp_left (·.append _)
      · exact phases_append worker reported.phases heard
  | @drop worker id now row held stored =>
      have heard := reported.row row stored
      refine ⟨?_, ?_, ?_⟩
      · rintro _ ⟨⟩
        have same : Heard track.trail (dropped row now) := ⟨heard.attempts, heard.delivered⟩
        exact same.append _
      · rintro _ ⟨⟩ -
        refine Or.imp_left (Finished.append · _) ?_
        by_cases delivered : row.deliveredAt = none
        · by_cases kept : row.abandonedAt = none
          · exact drops worker row rfl stored delivered kept
          · exact reported.abandoned row stored kept
        · exact .inl (.inl (heard.delivered delivered))
      · exact phases_append worker reported.phases trivial
  | @answer worker ticket copy now answer held =>
      have phase := reported.phases worker
      rw [held] at phase
      have copied : Heard track.trail copy := phase
      have answered : answers (track.trail ++ [.answered ticket now answer.error.isNone]) =
          answers track.trail + 1 := by
        rw [answers_append]
        rfl
      refine ⟨?_, ?_, ?_⟩
      · intro row stored
        exact (reported.row row stored).append _
      · intro row stored given_up
        exact (reported.abandoned row stored given_up).imp_left (·.append _)
      · refine phases_append worker reported.phases ⟨copied.append _, ?_, fun fine => ⟨ticket, now, ?_⟩⟩
        · rw [answered]
          exact Nat.succ_le_succ copied.attempts
        · rw [fine]
          exact List.mem_append_right _ (List.mem_singleton_self _)
  | @settle worker ticket copy now answer row held stored =>
      have phase := reported.phases worker
      rw [held] at phase
      obtain ⟨copied, counted, accepted⟩ := phase
      refine ⟨?_, ?_, ?_⟩
      · rintro _ ⟨⟩
        exact (reported.row row stored).settled counted accepted _
      · rintro _ ⟨⟩ given_up
        refine Or.imp_left (Finished.append · _) ?_
        by_cases ended : answer.error ≠ none ∧ maxAttempts ≤ copy.attempts + 1
        · exact .inl (finished_of_answers (ended.2.trans counted))
        · change column copy.abandonedAt (settled copy answer now).1.abandonedAt row.abandonedAt ≠
            none at given_up
          rw [settled_abandonedAt, if_neg ended, column, if_pos rfl] at given_up
          exact reported.abandoned row stored given_up
      · exact phases_append worker reported.phases trivial
  | @crash worker =>
      refine ⟨reported.row, reported.abandoned, ?_⟩
      exact phases_put worker reported.phases trivial
  | select | release => exact ⟨reported.row, reported.abandoned, reported.phases⟩
  | @replay request copy now held =>
      refine ⟨?_, ?_, fun worker => (reported.phases worker).append _⟩
      · intro _ mapped
        obtain ⟨row, stored, rfl⟩ := Option.map_eq_some_iff.mp mapped
        exact ((reported.row row stored).requeuedOver copy now).append _
      · intro _ mapped given_up
        obtain ⟨row, stored, rfl⟩ := Option.map_eq_some_iff.mp mapped
        have before := reported.abandoned row stored fun kept =>
          given_up (copy.requeuedOver_kept now kept)
        exact before.imp_left (·.append _)

end Tracks

/-! ## What an action does to the rows -/

section Rows

theorem requeueEach_subscriptions (rows : List WebhookDelivery) (now : Time) (db : Database) :
    (requeueEach rows now).Ensures db fun _ after => after.subscriptions = db.subscriptions := by
  refine Program.Spec.foldEach (W := store)
    (fun _ middle => Database.subscriptions middle = db.subscriptions) rfl ?_
  intro _ delivery middle _ same
  apply (flushDelivery_spec delivery (delivery.requeued now) middle).weaken
  rintro _ after ⟨-, rfl⟩
  exact same

/-- The delivery is given up only where its subscription is not active. -/
theorem loadDelivery_inactive (id : DeliveryId) (now : Time) (db : Database) :
    (loadDelivery id now).Ensures db fun loading _ => ∀ row, loading = .revoked →
      db.delivery? id = some row →
        (db.subscription? row.subscriptionId).filter (·.isActive) = none := by
  unfold loadDelivery
  apply Program.Spec.readThen
  split
  next => exact .of_raise trivial
  next delivery found =>
    apply Program.Spec.readThen
    split
    next missing =>
      apply (flushDelivery_spec _ _ _).bind
      rintro _ after -
      refine .of_pure fun row _ stored => ?_
      cases found.symm.trans stored
      exact missing
    next =>
      refine .of_pure fun row revoked => ?_
      cases revoked

variable {ι : Type} [DecidableEq ι] {state after : State ι}

/-- The webhook that an action revokes by hand. -/
def State.revokes (state : State ι) : Action ι → List Uuid
  | .subscription (.revoke application subscriptionId) =>
      match (revokeSubscription application subscriptionId state.clock).run state.db with
      | (.ok _, _) => [subscriptionId]
      | (.error _, _) => []
  | _ => []

/-- The delivery is neither delivered nor given up. -/
def Pending (delivery : WebhookDelivery) : Prop :=
  DeliveryState.pending.selects delivery = true

/-- What becomes of a webhook that is not deleted: it stays active, unless it is revoked by hand or has
nothing pending. -/
def Continues (db : Database) (revoked : List Uuid) (before after : WebhookSubscription) : Prop :=
  after.id = before.id ∧ after.applicationId = before.applicationId ∧
    (before.isActive = true → after.isActive = true ∨ before.id ∈ revoked ∨
      ∀ delivery ∈ db.deliveries, delivery.subscriptionId = before.id → ¬ Pending delivery)

theorem Continues.refl (db : Database) (revoked : List Uuid) (subscription : WebhookSubscription) :
    Continues db revoked subscription subscription :=
  ⟨rfl, rfl, .inl⟩

/-- What an action does to the rows of the webhooks. -/
inductive State.Touches (state : State ι) : Action ι → State ι → Prop where
  | keep {action : Action ι} {after : State ι} (issued : after.issued = state.issued)
      (tends : state.db.Tends after.db)
      (ids : ∀ id, (after.db.delivery? id).isSome = (state.db.delivery? id).isSome)
      (subscriptions : ∀ before ∈ state.db.subscriptions, ∃ subscription ∈ after.db.subscriptions,
        Continues state.db (state.revokes action) before subscription) : Touches state action after
  | enqueue {domain : Domain} {event : DomainEvent}
      (nodup : (state.issued ++
        (enqueued state.db.subscriptions domain event).map (·.id)).Nodup) :
      Touches state (.enqueue domain event)
        { state with
          db :=
            { state.db with
              deliveries := state.db.deliveries ++ enqueued state.db.subscriptions domain event }
          issued := state.issued ++ (enqueued state.db.subscriptions domain event).map (·.id) }
  | delete {application : Application} {subscription : WebhookSubscription}
      (stored : subscription ∈ state.db.subscriptions) (inactive : subscription.isActive = false) :
      Touches state (.deleteSubscription application subscription.id)
        { state with db := state.db.withoutSubscription subscription.id }

/-- All webhooks are kept. -/
def ContinuesAll (db : Database) (revoked : List Uuid) (after : Database) : Prop :=
  ∀ before ∈ db.subscriptions, ∃ subscription ∈ after.subscriptions,
    Continues db revoked before subscription

theorem continuesAll_same {db after : Database} {revoked : List Uuid}
    (same : after.subscriptions = db.subscriptions) : ContinuesAll db revoked after :=
  fun before stored => ⟨before, same ▸ stored, .refl db revoked before⟩

theorem flushSubscription_continues {db : Database} {revoked : List Uuid}
    {before after : WebhookSubscription}
    (kept : after.revokedAt = before.revokedAt ∨ before.id ∈ revoked) :
    (flushSubscription before after).Ensures db fun _ last => ContinuesAll db revoked last := by
  unfold flushSubscription
  split
  next => exact .of_pure (continuesAll_same rfl)
  next =>
    apply Program.Spec.of_write
    split
    next =>
      refine .of_pure fun row stored => ⟨_, List.mem_map_of_mem stored, ?_⟩
      by_cases same : row.id = before.id
      · rw [if_pos same]
        refine ⟨rfl, rfl, fun active => ?_⟩
        rcases kept with kept | revoked
        · left
          change (column before.revokedAt after.revokedAt row.revokedAt).isNone = true
          rw [column, if_pos kept]
          exact active
        · exact .inr (.inl (same ▸ revoked))
      · rw [if_neg same]
        exact .refl db revoked row
    next => exact .of_raise trivial

theorem createSubscription_continues (validateUrl : String → Except String String)
    (application : Application) (url : String) (events : List String) (id : Uuid) (secret : String)
    (now : Time) {db : Database} {revoked : List Uuid} :
    (createSubscription validateUrl application url events id secret now).Ensures db
      fun _ last => ContinuesAll db revoked last := by
  have inserts : ∀ subscription, (insertSubscription subscription).Ensures db
      fun _ last => ContinuesAll db revoked last := by
    intro subscription
    apply Program.Spec.of_write
    split_ifs
    · exact .of_raise trivial
    · exact .of_pure fun row stored => ⟨row, List.mem_append_left _ stored, .refl db revoked row⟩
    · exact .of_raise trivial
  unfold createSubscription listSubscriptions
  refine .requireThen (fun _ => ?_) fun _ => trivial
  apply Program.Spec.readThen
  refine .requireThen (fun _ => ?_) fun _ => trivial
  cases validateUrl url with
  | error message => exact .of_raise trivial
  | ok url => exact (inserts _).bind fun _ _ continues => .of_pure continues

theorem revokeSubscription_continues (application : Application) (subscriptionId : Uuid) (now : Time)
    (db : Database) :
    (revokeSubscription application subscriptionId now).Ensures db fun _ last =>
      ContinuesAll db [subscriptionId] last := by
  unfold revokeSubscription
  apply (getSubscription_spec application subscriptionId db).bind
  rintro subscription _ ⟨rfl, -, rfl, -⟩
  split
  next =>
    refine (flushSubscription_continues (.inr (List.mem_singleton_self _))).bind ?_
    exact fun _ _ continues => .of_pure continues
  next => exact .of_pure (continuesAll_same rfl)

theorem rotateSecret_continues (application : Application) (subscriptionId : Uuid) (secret : String)
    (grace now : Time) {db : Database} {revoked : List Uuid} :
    (rotateSecret application subscriptionId secret grace now).Ensures db fun _ last =>
      ContinuesAll db revoked last := by
  unfold rotateSecret
  apply (getSubscription_spec application subscriptionId db).bind
  rintro subscription found ⟨rfl, -⟩
  have flushes : ∀ after : WebhookSubscription, after.revokedAt = subscription.revokedAt →
      (flushSubscription subscription after).Ensures found fun _ last =>
        ContinuesAll found revoked last :=
    fun after kept => flushSubscription_continues (.inl kept)
  apply Program.Spec.bind (flushes _ ?_)
  · exact fun _ _ continues => .of_pure continues
  · exact rfl

/-- Settling revokes only webhooks that have nothing pending. -/
theorem settleDeletedApplications_continues (now : Time) {db : Database} {revoked : List Uuid} :
    (settleDeletedApplications now).Ensures db fun _ last => ContinuesAll db revoked last := by
  refine .of_write (.of_pure fun row stored => ⟨_, List.mem_map_of_mem stored, ?_⟩)
  dsimp only
  split
  next settles =>
    refine ⟨rfl, rfl, fun _ => .inr (.inr fun delivery member same pending => ?_)⟩
    rw [Bool.and_eq_true, Bool.not_eq_true', List.any_eq_false] at settles
    apply settles.2 delivery member
    rw [same, decide_eq_true rfl, Bool.true_and]
    exact pending
  next => exact .refl db revoked row

theorem transact_discard {α : Type} (program : Sql α) (db : Database) :
    (program >>= fun _ => pure ()).transact db = program.transact db := by
  unfold Program.transact
  rw [Program.run_bind]
  rcases program.run db with ⟨_ | _, changed⟩
  · rfl
  · rfl

omit [DecidableEq ι] in
theorem SubscriptionOp.continues (op : SubscriptionOp) (state : State ι) :
    ContinuesAll state.db (state.revokes (.subscription op))
      ((op.program state.clock).transact state.db) := by
  have settles : ∀ {α : Type} {program : Sql α} {revoked : List Uuid},
      program.Ensures state.db (fun _ last => ContinuesAll state.db revoked last) →
        ContinuesAll state.db revoked ((program >>= fun _ => pure ()).transact state.db) := by
    intro α program revoked spec
    rw [transact_discard]
    exact spec.transact (continuesAll_same rfl)
  cases op with
  | create validateUrl application url events id secret =>
      exact settles (createSubscription_continues validateUrl application url events id secret _)
  | rotate application subscriptionId secret grace =>
      exact settles (rotateSecret_continues application subscriptionId secret grace _)
  | settleDeleted => exact settles (settleDeletedApplications_continues _)
  | revoke application subscriptionId =>
      have spec := revokeSubscription_continues application subscriptionId state.clock state.db
      change ContinuesAll state.db _ ((revokeSubscription application subscriptionId state.clock >>=
        fun _ => pure ()).transact state.db)
      rw [transact_discard, State.revokes]
      rcases ran : (revokeSubscription application subscriptionId state.clock).run state.db with
        ⟨_ | _, changed⟩
      · rw [Program.transact_of_error ran]
        exact continuesAll_same rfl
      · rw [Program.transact_of_ok ran]
        exact spec.result ran

theorem transact_tends (op : WebhookOp) (db : Database) :
    db.Tends (op.program.transact db) :=
  (op.program_tends db).transact (.refl db)

/-- Only a webhook that is revoked is deleted. -/
theorem deleteSubscription_inactive (application : Application) (subscriptionId : Uuid)
    (db : Database) :
    (CustomDomain.deleteSubscription application subscriptionId).Ensures db fun _ after =>
      ∃ subscription ∈ db.subscriptions, subscription.id = subscriptionId ∧
        subscription.isActive = false ∧ after = db.withoutSubscription subscriptionId := by
  unfold CustomDomain.deleteSubscription
  apply (getSubscription_spec application subscriptionId db).bind
  rintro subscription _ ⟨rfl, stored, named, -⟩
  refine .requireThen (fun revoked => ?_) fun _ => trivial
  refine .of_write (.of_pure ⟨subscription, stored, named, ?_, rfl⟩)
  rw [WebhookSubscription.isActive, Option.isNone_eq_false_iff, Option.isSome_iff_ne_none]
  exact revoked

/-- A replay leaves the rows where they are. -/
theorem requeues_isSome {db after : Database} {copies : List WebhookDelivery} {now : Time}
    (requeues : db.Requeues copies now after) (id : DeliveryId) :
    (after.delivery? id).isSome = (db.delivery? id).isSome := by
  rw [requeues.rows id]
  split
  · exact Option.isSome_map
  · rfl

theorem updateDelivery_isSome {db : Database} {change : WebhookDelivery → WebhookDelivery}
    (kept : ∀ row, (change row).id = row.id) (at_ id : DeliveryId) :
    ((db.updateDelivery at_ change).delivery? id).isSome = (db.delivery? id).isSome := by
  rw [Database.delivery?_updateDelivery kept]
  split
  next same =>
    rw [Option.isSome_map, same]
  next => rfl

theorem deliveries_isSome {db after : Database} (same : after.deliveries = db.deliveries)
    (id : DeliveryId) : (after.delivery? id).isSome = (db.delivery? id).isSome := by
  unfold Database.delivery?
  rw [same]

/-- The actions that read, or move a worker or a request, and write no row. -/
def Action.isQuiet : Action ι → Bool
  | .tick _ | .poll .. | .next _ | .begin .. | .crash _ | .select .. | .rollback _ => true
  | _ => false

theorem perform_quiet {action : Action ι} (quiet : action.isQuiet = true)
    (performed : state.perform action = some after) :
    after.db = state.db ∧ after.issued = state.issued ∧ after.trail = state.trail := by
  cases action with
  | tick at_ =>
      simp only [State.perform] at performed
      split_ifs at performed
      cases performed
      exact ⟨rfl, rfl, rfl⟩
  | poll worker limit | next worker | begin worker id =>
      simp only [State.perform] at performed
      split at performed
      · cases performed
        exact ⟨rfl, rfl, rfl⟩
      · cases performed
  | select request op =>
      simp only [State.perform, State.select] at performed
      split at performed
      · cases performed
        exact ⟨rfl, rfl, rfl⟩
      · cases performed
  | crash worker | rollback request =>
      cases performed
      exact ⟨rfl, rfl, rfl⟩
  | lease | load | answer | record | requeue | enqueue | subscription | deleteSubscription => cases quiet

/-- What an action does to the rows of the webhooks. -/
theorem perform_touches (sound : state.Sound) {action : Action ι}
    (performed : state.perform action = some after) : state.Touches action after := by
  have still : ∀ {action : Action ι} {after : State ι}, after.db = state.db →
      after.issued = state.issued → state.Touches action after := by
    intro action after rows issued
    refine .keep issued ?_ (fun id => by rw [rows]) (continuesAll_same ?_)
    · rw [rows]
      exact .refl state.db
    · rw [rows]
  cases action with
  | tick | poll | next | begin | crash | select | rollback =>
      obtain ⟨rows, issued, -⟩ := perform_quiet rfl performed
      exact still rows issued
  | lease worker =>
      simp only [State.perform, State.lease, leaseDelivery_run] at performed
      split at performed
      next id now held =>
        split at performed
        next granted =>
          split_ifs at granted
          · cases granted
            cases performed
            have kept : ∀ row : WebhookDelivery, (leased row now).id = row.id := fun _ => rfl
            refine .keep rfl (updateDelivery_tends state.db kept id) (updateDelivery_isSome kept id)
              (continuesAll_same ?_)
            exact rfl
          · cases granted
        next =>
          cases performed
          exact still rfl rfl
        next => cases performed
      next => cases performed
  | load worker =>
      simp only [State.perform, State.load] at performed
      split at performed
      next id now held =>
        have spec := loadDelivery_spec id now state.db
        split at performed
        next =>
          cases performed
          exact still rfl rfl
        next ran =>
          cases performed
          obtain ⟨row, -, rfl⟩ := spec.result ran
          refine .keep rfl (updateDelivery_tends state.db (by simp) id)
            (updateDelivery_isSome (by simp) id) (continuesAll_same ?_)
          exact rfl
        next => cases performed
      next => cases performed
  | answer worker answer =>
      simp only [State.perform] at performed
      split at performed
      · cases performed
        exact still rfl rfl
      · cases performed
  | record worker =>
      simp only [State.perform, State.record] at performed
      split at performed
      next ticket copy now answer held =>
        have spec := recordAttempt_spec copy answer now state.db
        split at performed
        next ran =>
          cases performed
          obtain ⟨-, -, rfl⟩ := spec.result ran
          refine .keep rfl (updateDelivery_tends state.db (by simp) copy.id)
            (updateDelivery_isSome (by simp) copy.id) (continuesAll_same ?_)
          exact rfl
        next => cases performed
      next => cases performed
  | requeue request now =>
      simp only [State.perform, State.requeue] at performed
      split at performed
      next => cases performed
      next start rows selected =>
        have spec := requeueEach_spec sound.keyed now (sound.distinct request start rows selected)
        have same := requeueEach_subscriptions rows now state.db
        split_ifs at performed
        split at performed
        next changed ran =>
          cases performed
          exact .keep rfl ((requeueEach_tends state.db rows now).result ran)
            (requeues_isSome (spec.result ran)) (continuesAll_same (same.result ran))
        next =>
          cases performed
          exact still rfl rfl
  | enqueue domain event =>
      simp only [State.perform, State.enqueue] at performed
      have ran := enqueueForEvent_run domain event state.db
      rw [Program.transact_of_ok ran] at performed
      dsimp only at performed
      rw [List.drop_left] at performed
      split_ifs at performed with nodup
      cases performed
      exact .enqueue nodup
  | subscription op =>
      cases performed
      have tends := transact_tends (.subscription op state.clock) state.db
      exact .keep rfl tends (deliveries_isSome (op.program_deliveries state.clock state.db))
        (op.continues state)
  | deleteSubscription application subscriptionId =>
      cases performed
      have spec := deleteSubscription_inactive application subscriptionId state.db
      rcases ran : (CustomDomain.deleteSubscription application subscriptionId).run state.db with
        ⟨_ | _, changed⟩
      · rw [Program.transact_of_error ran]
        exact still rfl rfl
      · rw [Program.transact_of_ok ran]
        obtain ⟨subscription, stored, rfl, inactive, rfl⟩ := spec.result ran
        exact .delete stored inactive

/-- The webhook of the delivery is revoked or gone. -/
def Unsent (db : Database) (id : DeliveryId) : Prop :=
  ∀ row, db.delivery? id = some row →
    (db.subscription? row.subscriptionId).filter (·.isActive) = none

theorem State.advance_trail (worker : ι) (phase : Phase) (db : Database) (noted id : DeliveryId)
    (happenings : List Happening) :
    (state.advance worker phase db noted happenings).trail id =
      state.trail id ++ if id = noted then happenings else [] := by
  by_cases same : id = noted
  · subst same
    simp [State.advance]
  · simp [State.advance, same]

/-- An action adds to the trail, and gives a delivery up only where it is not sent any more. -/
theorem perform_trail {action : Action ι} (performed : state.perform action = some after)
    (id : DeliveryId) :
    ∃ more, after.trail id = state.trail id ++ more ∧
      (.dropped ∈ more → Unsent state.db id) := by
  have quiet : ∀ {after : State ι}, after.trail = state.trail →
      ∃ more, after.trail id = state.trail id ++ more ∧ (.dropped ∈ more → Unsent state.db id) := by
    intro after same
    refine ⟨[], ?_, fun dropped => absurd dropped (List.not_mem_nil)⟩
    rw [same, List.append_nil]
  have notes : ∀ {worker phase db noted happenings}, .dropped ∉ happenings →
      ∃ more, (state.advance worker phase db noted happenings).trail id = state.trail id ++ more ∧
        (.dropped ∈ more → Unsent state.db id) := by
    intro worker phase db noted happenings other
    refine ⟨_, State.advance_trail worker phase db noted id happenings, fun dropped => ?_⟩
    split at dropped
    · exact absurd dropped other
    · cases dropped
  have requeues : ∀ {request : ι} {db}, ∃ more,
      (state.replayed request db).trail id = state.trail id ++ more ∧
        (.dropped ∈ more → Unsent state.db id) := by
    intro request db
    refine ⟨if ((state.replays request).copy? id).isSome then [.replayed] else [], ?_,
      fun dropped => ?_⟩
    · unfold State.replayed
      dsimp only
      split <;> simp [*]
    · split at dropped <;> cases dropped
      contradiction
  cases action with
  | tick | poll | next | begin | crash | select | rollback =>
      exact quiet (perform_quiet rfl performed).2.2
  | lease worker =>
      simp only [State.perform, State.lease] at performed
      split at performed
      · split at performed
        · cases performed
          exact notes (List.not_mem_nil)
        · cases performed
          exact quiet rfl
        · cases performed
      · cases performed
  | load worker =>
      simp only [State.perform, State.load] at performed
      split at performed
      next leased now held =>
        have spec := loadDelivery_inactive leased now state.db
        split at performed
        next =>
          cases performed
          exact notes (by simp)
        next ran =>
          cases performed
          refine ⟨_, State.advance_trail worker _ _ leased id _, fun dropped row stored => ?_⟩
          split at dropped
          next same => exact spec.result ran row rfl (same ▸ stored)
          next => cases dropped
        next => cases performed
      next => cases performed
  | answer worker answer =>
      simp only [State.perform] at performed
      split at performed
      · cases performed
        exact notes (by simp)
      · cases performed
  | record worker =>
      simp only [State.perform, State.record] at performed
      split at performed
      · split at performed
        · cases performed
          exact notes (by simp)
        · cases performed
      · cases performed
  | requeue request now =>
      simp only [State.perform, State.requeue] at performed
      split at performed
      · cases performed
      · split_ifs at performed
        split at performed
        · cases performed
          exact requeues
        · cases performed
          exact quiet rfl
  | enqueue domain event =>
      simp only [State.perform, State.enqueue] at performed
      split_ifs at performed
      cases performed
      exact quiet rfl
  | subscription op =>
      cases performed
      exact quiet rfl
  | deleteSubscription application subscriptionId =>
      cases performed
      exact quiet rfl

end Rows

/-! ## The whole system -/

/-- The webhook system beside the service, with the webhooks that were revoked by hand and the deliveries
that went with their application. -/
structure SystemState (ι : Type) where
  webhooks : State ι
  revoked : List Uuid
  removed : List DeliveryId

inductive SystemAction (ι : Type) where
  | webhooks (action : Action ι)
  | service (op : ServiceOp)

section System

variable {ι : Type} [DecidableEq ι] (environment : Environment)

/-- Before anything has happened. -/
def SystemState.initial (ι : Type) : SystemState ι where
  webhooks :=
    { db := {}
      clock := 0
      workers := fun _ => .idle
      queue := fun _ => []
      replays := fun _ => .idle
      trail := fun _ => []
      issued := [] }
  revoked := []
  removed := []

/-- An operation of the service.  Deliveries are enqueued under identifiers that were not used before. -/
def SystemState.serve (state : SystemState ι) (op : ServiceOp) : SystemState ι :=
  let before := state.webhooks.db
  let after := op.run environment before
  let issued := state.webhooks.issued ++ (before.createdSince after).map (·.id)
  if issued.Nodup then
    { webhooks := { state.webhooks with db := after, issued := issued }
      revoked := state.revoked
      removed := state.removed ++
        (before.deliveries.map (·.id)).filter fun id => (after.delivery? id).isNone }
  else state

/-- What one participant does next, if it can. -/
def SystemState.step (state : SystemState ι) : SystemAction ι → SystemState ι
  | .webhooks action =>
      match state.webhooks.perform action with
      | some after =>
          { state with
            webhooks := after
            revoked := state.revoked ++ state.webhooks.revokes action }
      | none => state
  | .service op => state.serve environment op

def SystemState.run (state : SystemState ι) (actions : List (SystemAction ι)) : SystemState ι :=
  actions.foldl (SystemState.step environment) state

/-- Nothing more is owed for the delivery: it is finished, or its webhook was revoked by hand. -/
def SystemState.Excused (state : SystemState ι) (id : DeliveryId) : Prop :=
  Finished (state.webhooks.trail id) ∨ id.subscriptionId ∈ state.revoked

/-- The row has its subscription, which is active as long as something is owed. -/
def SystemState.Owned (state : SystemState ι) (delivery : WebhookDelivery) : Prop :=
  ∃ subscription ∈ state.webhooks.db.subscriptions, subscription.id = delivery.subscriptionId ∧
    subscription.applicationId = delivery.applicationId ∧
    (Pending delivery → subscription.isActive = true ∨ state.Excused delivery.id)

structure SystemState.Kept (state : SystemState ι) : Prop where
  sound : state.webhooks.Sound
  consistent : state.webhooks.db.Consistent environment
  keyed : (state.webhooks.db.subscriptions.map (·.id)).Nodup
  reported : ∀ id, Reported (id.subscriptionId ∈ state.revoked) (state.webhooks.track id)
  owned : ∀ delivery ∈ state.webhooks.db.deliveries, state.Owned delivery
  known : ∀ id ∈ state.webhooks.issued, (state.webhooks.db.delivery? id).isSome = true ∨
    state.Excused id ∨ id ∈ state.removed

theorem pending_iff {delivery : WebhookDelivery} :
    Pending delivery ↔ delivery.deliveredAt = none ∧ delivery.abandonedAt = none := by
  simp [Pending, DeliveryState.selects]

/-- A delivery that was just enqueued. -/
structure Enqueued (db : Database) (delivery : WebhookDelivery) : Prop where
  fresh : delivery.Fresh
  wanted : ∃ subscription ∈ db.subscriptions, subscription.id = delivery.subscriptionId ∧
    subscription.applicationId = delivery.applicationId ∧ subscription.isActive = true

theorem enqueued_of_mem {db : Database} {domain : Domain} {event : DomainEvent}
    {delivery : WebhookDelivery} (member : delivery ∈ enqueued db.subscriptions domain event) :
    Enqueued db delivery := by
  unfold enqueued at member
  split at member
  next => cases member
  next =>
    obtain ⟨subscription, listed, rfl⟩ := List.mem_map.mp member
    rw [List.mem_filter, Bool.and_eq_true, Bool.and_eq_true, decide_eq_true_eq] at listed
    exact ⟨⟨rfl, rfl, rfl⟩, subscription, listed.1, rfl, listed.2.1.1, listed.2.1.2⟩

theorem enqueued_of_emits {db : Database} {recorded : List DomainEvent}
    {created : List WebhookDelivery} (emits : Emits db.subscriptions recorded created) :
    ∀ delivery ∈ created, Enqueued db delivery := by
  induction emits with
  | nil => simp
  | cons owner rest ih =>
      intro delivery member
      rcases List.mem_append.mp member with here | later
      · exact enqueued_of_mem here
      · exact ih delivery later

section Steps

variable {environment} {state : SystemState ι} (kept : state.Kept environment)

include kept

omit [DecidableEq ι] in
/-- Nothing is owed for a row that is not pending. -/
theorem SystemState.Kept.excused {delivery : WebhookDelivery}
    (stored : state.webhooks.db.delivery? delivery.id = some delivery)
    (settled : ¬ Pending delivery) : state.Excused delivery.id := by
  have reported := kept.reported delivery.id
  by_cases delivered : delivery.deliveredAt = none
  · exact reported.abandoned delivery stored fun kept => settled (pending_iff.mpr ⟨delivered, kept⟩)
  · exact .inl (.inl ((reported.row delivery stored).delivered delivered))

omit [DecidableEq ι] in
/-- Nothing is owed for a row whose subscription is not active. -/
theorem SystemState.Kept.excused_of_inactive {delivery : WebhookDelivery}
    (stored : state.webhooks.db.delivery? delivery.id = some delivery)
    {subscription : WebhookSubscription} (listed : subscription ∈ state.webhooks.db.subscriptions)
    (own : subscription.id = delivery.subscriptionId) (inactive : subscription.isActive = false) :
    state.Excused delivery.id := by
  by_cases pending : Pending delivery
  · obtain ⟨other, stored', id, -, active⟩ := kept.owned delivery (Database.delivery?_id stored).2
    have found := KeyedRows.lookup_of_mem kept.keyed stored'
    rw [id, ← own, KeyedRows.lookup_of_mem kept.keyed listed] at found
    cases found
    refine (active pending).resolve_left fun active => ?_
    rw [inactive] at active
    cases active
  · exact kept.excused stored pending

omit [DecidableEq ι] in
/-- More deliveries, for active webhooks. -/
theorem SystemState.Kept.grow {after : Database} {created : List WebhookDelivery}
    (consistent : after.Consistent environment)
    (subscriptions : after.subscriptions = state.webhooks.db.subscriptions)
    (deliveries : after.deliveries = state.webhooks.db.deliveries ++ created)
    (enqueued : ∀ delivery ∈ created, Enqueued state.webhooks.db delivery)
    (nodup : (state.webhooks.issued ++ created.map (·.id)).Nodup) :
    SystemState.Kept environment
      { state with
        webhooks :=
          { state.webhooks with
            db := after, issued := state.webhooks.issued ++ created.map (·.id) } } := by
  have sound := kept.sound
  have keyed : after.DeliveriesKeyed := by
    unfold Database.DeliveriesKeyed
    rw [deliveries, List.map_append, List.nodup_append']
    refine ⟨sound.keyed, nodup.of_append_right, fun id old added => ?_⟩
    obtain ⟨delivery, member, rfl⟩ := List.mem_map.mp old
    exact List.disjoint_of_nodup_append nodup (sound.issued member) added
  have old : ∀ {id row}, state.webhooks.db.delivery? id = some row →
      after.delivery? id = some row := by
    intro id row stored
    obtain ⟨rfl, member⟩ := Database.delivery?_id stored
    exact Database.delivery?_of_mem keyed (deliveries ▸ List.mem_append_left _ member)
  have origin : ∀ {row}, row ∈ after.deliveries →
      state.webhooks.db.delivery? row.id = some row ∨ row ∈ created := by
    intro row member
    rw [deliveries, List.mem_append] at member
    exact member.imp_left fun member => Database.delivery?_of_mem sound.keyed member
  refine ⟨⟨keyed, fun id missing => ?_, sound.begun, sound.distinct⟩, consistent, ?_, fun id => ?_, ?_,
    ?_⟩
  · have absent : after.delivery? id = none := by
      refine KeyedRows.lookup_eq_none.mpr fun row member same => missing ?_
      rw [← same, List.mem_append]
      rcases origin member with stored | added
      · exact .inl (sound.issued (Database.delivery?_id stored).2)
      · exact .inr (List.mem_map_of_mem added)
    have before := sound.known id fun issued => missing (List.mem_append_left _ issued)
    have phases := congrArg Track.phase before
    have trail := congrArg Track.trail before
    have copies := congrArg Track.copies before
    ext1
    · exact absent
    · exact phases
    · exact trail
    · rfl
    · exact copies
  · dsimp only
    rw [subscriptions]
    exact kept.keyed
  · have reported := kept.reported id
    refine ⟨fun row stored => ?_, fun row stored given_up => ?_, reported.phases⟩
    · obtain ⟨rfl, member⟩ := Database.delivery?_id stored
      rcases origin member with stored | added
      · exact reported.row row stored
      · have fresh := (enqueued row added).fresh
        exact ⟨fresh.attempts ▸ Nat.zero_le _, fun delivered => absurd fresh.deliveredAt delivered⟩
    · obtain ⟨rfl, member⟩ := Database.delivery?_id stored
      rcases origin member with stored | added
      · exact reported.abandoned row stored given_up
      · exact absurd (enqueued row added).fresh.abandonedAt given_up
  · intro delivery member
    unfold SystemState.Owned
    dsimp only
    rw [subscriptions]
    rcases origin member with stored | added
    · exact kept.owned delivery (Database.delivery?_id stored).2
    · obtain ⟨subscription, listed, id, owner, active⟩ := (enqueued delivery added).wanted
      exact ⟨subscription, listed, id, owner, fun _ => .inl active⟩
  · intro id issued
    rcases List.mem_append.mp issued with issued | added
    · refine (kept.known id issued).imp_left fun present => ?_
      obtain ⟨row, stored⟩ := Option.isSome_iff_exists.mp present
      exact Option.isSome_iff_exists.mpr ⟨row, old stored⟩
    · left
      obtain ⟨row, member, rfl⟩ := List.mem_map.mp added
      exact Option.isSome_iff_exists.mpr ⟨row,
        Database.delivery?_of_mem keyed (deliveries ▸ List.mem_append_right _ member)⟩

omit [DecidableEq ι] in
/-- What belongs to the applications that are purged goes. -/
theorem SystemState.Kept.purge (now : Time) :
    SystemState.Kept environment
      { state with
        webhooks := { state.webhooks with db := purgeRows now state.webhooks.db }
        removed := state.removed ++ (state.webhooks.db.deliveries.map (·.id)).filter fun id =>
          ((purgeRows now state.webhooks.db).delivery? id).isNone } := by
  have sound := kept.sound
  have sublist : (purgeRows now state.webhooks.db).deliveries.Sublist state.webhooks.db.deliveries :=
    List.filter_sublist
  have keyed : (purgeRows now state.webhooks.db).DeliveriesKeyed :=
    List.Nodup.sublist (sublist.map (·.id)) sound.keyed
  have origin : ∀ {id row}, (purgeRows now state.webhooks.db).delivery? id = some row →
      state.webhooks.db.delivery? id = some row := by
    intro id row stored
    obtain ⟨rfl, member⟩ := Database.delivery?_id stored
    exact Database.delivery?_of_mem sound.keyed (sublist.subset member)
  have consistent : (purgeRows now state.webhooks.db).Consistent environment := by
    have after := kept.consistent.runAll [.purgeTombstones now]
    rwa [runAll, List.foldl_cons, List.foldl_nil, ServiceOp.run_purge] at after
  refine ⟨⟨keyed, fun id missing => ?_, sound.begun, sound.distinct⟩, consistent, ?_, fun id => ?_, ?_,
    ?_⟩
  · have before := sound.known id missing
    have row : state.webhooks.db.delivery? id = none := congrArg Track.row before
    have phases := congrArg Track.phase before
    have trail := congrArg Track.trail before
    have copies := congrArg Track.copies before
    ext1
    · cases stored : (purgeRows now state.webhooks.db).delivery? id with
      | none => exact stored
      | some other => cases row.symm.trans (origin stored)
    · exact phases
    · exact trail
    · rfl
    · exact copies
  · exact List.Nodup.sublist (List.filter_sublist.map _) kept.keyed
  · have reported := kept.reported id
    exact ⟨fun row stored => reported.row row (origin stored),
      fun row stored => reported.abandoned row (origin stored), reported.phases⟩
  · intro delivery member
    have remains := List.mem_filter.mp member
    obtain ⟨subscription, listed, id, owner, active⟩ := kept.owned delivery remains.1
    exact ⟨subscription, List.mem_filter.mpr ⟨listed, owner ▸ remains.2⟩, id, owner, active⟩
  · intro id issued
    rcases kept.known id issued with present | excused | removed
    · cases stays : (purgeRows now state.webhooks.db).delivery? id with
      | some row => exact .inl rfl
      | none =>
          obtain ⟨row, stored⟩ := Option.isSome_iff_exists.mp present
          obtain ⟨rfl, member⟩ := Database.delivery?_id stored
          refine .inr (.inr (List.mem_append_right _ (List.mem_filter.mpr ⟨?_, ?_⟩)))
          · exact List.mem_map_of_mem member
          · rw [stays]
            rfl
    · exact .inr (.inl excused)
    · exact .inr (.inr (List.mem_append_left _ removed))

omit [DecidableEq ι] in
theorem SystemState.Kept.serve (op : ServiceOp) :
    (state.serve environment op).Kept environment := by
  unfold SystemState.serve
  dsimp only
  split
  next nodup =>
    rcases op.audit kept.consistent with steps | ⟨now, rfl⟩
    · obtain ⟨recorded, created, grows⟩ := auditSteps_grow steps
      have added : state.webhooks.db.createdSince (op.run environment state.webhooks.db) = created := by
        rw [Database.createdSince, grows.deliveries, List.drop_left]
      have none_ : ((state.webhooks.db.deliveries.map (·.id)).filter fun id =>
          ((op.run environment state.webhooks.db).delivery? id).isNone) = [] := by
        rw [List.filter_eq_nil_iff]
        intro id member
        obtain ⟨row, stored, rfl⟩ := List.mem_map.mp member
        have present : ((op.run environment state.webhooks.db).delivery? row.id).isSome = true := by
          unfold Database.delivery?
          rw [List.find?_isSome, grows.deliveries]
          exact ⟨row, List.mem_append_left _ stored, decide_eq_true rfl⟩
        rw [Option.isNone_iff_eq_none]
        exact Option.isSome_iff_ne_none.mp present
      rw [added] at nodup ⊢
      rw [none_, List.append_nil]
      exact kept.grow (kept.consistent.runAll [op]) grows.subscriptions grows.deliveries
        (enqueued_of_emits grows.emits) nodup
    · rw [ServiceOp.run_purge]
      have none_ : state.webhooks.db.createdSince (purgeRows now state.webhooks.db) = [] :=
        List.drop_eq_nil_iff.mpr (List.length_filter_le _ _)
      rw [none_, List.map_nil, List.append_nil]
      exact kept.purge now
  next => exact kept

omit kept in
theorem Step.drop_trail {track after : Track ι} {worker : ι} (step : track.Step (.drop worker) after) :
    after.trail = track.trail ++ [.dropped] := by
  cases step
  rfl

omit kept in
/-- A row that was there before keeps its application. -/
theorem Step.row_origin {track after : Track ι} {move : Move ι} (step : track.Step move after)
    {row : WebhookDelivery} (stored : after.row = some row) :
    track.row = none ∨ ∃ before, track.row = some before ∧ row.applicationId = before.applicationId := by
  cases step with
  | wait => exact .inr ⟨row, stored, rfl⟩
  | create absent => exact .inl absent
  | remove => cases stored
  | lease before =>
      cases stored
      exact .inr ⟨_, before, rfl⟩
  | load held before => exact .inr ⟨row, stored, rfl⟩
  | drop held before =>
      cases stored
      exact .inr ⟨_, before, rfl⟩
  | answer => exact .inr ⟨row, stored, rfl⟩
  | settle held before =>
      cases stored
      exact .inr ⟨_, before, rfl⟩
  | crash => exact .inr ⟨row, stored, rfl⟩
  | select | release => exact .inr ⟨row, stored, rfl⟩
  | replay =>
      obtain ⟨before, stored', rfl⟩ := Option.map_eq_some_iff.mp stored
      exact .inr ⟨before, stored', rfl⟩

/-- What is reported of every delivery after an action. -/
theorem SystemState.Kept.reported_perform {action : Action ι} {after : State ι}
    (performed : state.webhooks.perform action = some after) (id : DeliveryId) :
    Reported (id.subscriptionId ∈ state.revoked ++ state.webhooks.revokes action) (after.track id) := by
  obtain ⟨move, step, -⟩ := perform_track kept.sound performed id
  have before := (kept.reported id).mono (List.mem_append_left (state.webhooks.revokes action))
  refine before.step step ?_
  rintro worker row rfl stored delivered kept_
  have excused : state.Excused id := by
    obtain ⟨more, trail, unsent⟩ := perform_trail performed id
    have dropped := Step.drop_trail step
    change after.trail id = state.webhooks.trail id ++ [.dropped] at dropped
    rw [dropped, List.append_cancel_left_eq] at trail
    have missing := unsent (trail ▸ List.mem_singleton_self _) row stored
    obtain ⟨rfl, member⟩ := Database.delivery?_id stored
    obtain ⟨subscription, listed, own, -⟩ := kept.owned row member
    have found : state.webhooks.db.subscription? row.subscriptionId = some subscription :=
      own ▸ KeyedRows.lookup_of_mem kept.keyed listed
    refine kept.excused_of_inactive stored listed own ?_
    rw [found, Option.filter_eq_none_iff] at missing
    exact Bool.eq_false_iff.mpr (missing subscription rfl)
  exact excused.imp_right (List.mem_append_left _)

/-- An action of the webhook system keeps it. -/
theorem SystemState.Kept.perform {action : Action ι} {after : State ι}
    (performed : state.webhooks.perform action = some after) :
    SystemState.Kept environment
      { state with
        webhooks := after
        revoked := state.revoked ++ state.webhooks.revokes action } := by
  have sound := perform_sound kept.sound performed
  have reported := kept.reported_perform performed
  have excused : ∀ {id}, state.Excused id → SystemState.Excused
      { state with
        webhooks := after
        revoked := state.revoked ++ state.webhooks.revokes action } id := by
    intro id excused
    obtain ⟨more, trail, -⟩ := perform_trail performed id
    refine excused.imp (fun finished => ?_) (List.mem_append_left _)
    dsimp only
    rw [trail]
    exact finished.append more
  cases perform_touches kept.sound performed with
  | keep issued tends ids continues =>
      refine ⟨sound, ?_, tends.keyed kept.keyed, reported, fun delivery member => ?_, fun id known => ?_⟩
      · exact kept.consistent.congr tends.domains tends.applications tends.origins
      · have stored := Database.delivery?_of_mem sound.keyed member
        obtain ⟨move, step, -⟩ := perform_track kept.sound performed delivery.id
        rcases Step.row_origin step stored with absent | ⟨before, stored', owner⟩
        · have present := ids delivery.id
          rw [stored, show state.webhooks.db.delivery? delivery.id = none from absent] at present
          cases present
        · obtain ⟨same, member'⟩ := Database.delivery?_id stored'
          have own : before.subscriptionId = delivery.subscriptionId :=
            congrArg DeliveryId.subscriptionId same
          obtain ⟨subscription, listed, named, belongs, active⟩ := kept.owned before member'
          obtain ⟨next, listed', named', belongs', continues⟩ := continues subscription listed
          refine ⟨next, listed', named'.trans (named.trans own), ?_, fun _ => ?_⟩
          · exact belongs'.trans (belongs.trans owner.symm)
          · have stored'' : state.webhooks.db.delivery? before.id = some before := same ▸ stored'
            by_cases pending : Pending before
            · rcases active pending with active | done
              · rcases continues active with active | revoked | nothing
                · exact .inl active
                · have revoked' : delivery.subscriptionId ∈ state.webhooks.revokes action :=
                    named.trans own ▸ revoked
                  exact .inr (.inr (List.mem_append_right _ revoked'))
                · exact absurd pending (nothing before member' named.symm)
              · exact .inr (excused (same ▸ done))
            · exact .inr (excused (same ▸ kept.excused stored'' pending))
      · dsimp only at known ⊢
        rw [issued] at known
        rw [ids id]
        exact (kept.known id known).imp_right (Or.imp_left excused)
  | @enqueue domain event nodup =>
      have none_ : state.webhooks.revokes (.enqueue domain event) = [] := rfl
      rw [none_, List.append_nil]
      exact kept.grow (kept.consistent.congr rfl rfl rfl) rfl rfl
        (fun _ member => enqueued_of_mem member) nodup
  | @delete application subscription stored inactive =>
      refine ⟨sound, ?_, ?_, reported, fun delivery member => ?_, fun id known => ?_⟩
      · exact kept.consistent.congr rfl rfl rfl
      · exact List.Nodup.sublist (List.filter_sublist.map _) kept.keyed
      · obtain ⟨member, other⟩ := List.mem_filter.mp member
        obtain ⟨own, listed, named, belongs, active⟩ := kept.owned delivery member
        refine ⟨own, List.mem_filter.mpr ⟨listed, ?_⟩, named, belongs, fun pending => ?_⟩
        · rw [named]
          exact other
        · exact (active pending).imp_right excused
      · rcases kept.known id known with present | rest
        · obtain ⟨row, stored'⟩ := Option.isSome_iff_exists.mp present
          obtain ⟨rfl, member⟩ := Database.delivery?_id stored'
          by_cases own : subscription.id = row.subscriptionId
          · exact .inr (.inl (excused (kept.excused_of_inactive stored' stored own inactive)))
          · refine .inl (List.find?_isSome.mpr ⟨row, List.mem_filter.mpr ⟨member, ?_⟩, ?_⟩)
            · exact decide_eq_true (Ne.symm own)
            · exact decide_eq_true rfl
        · exact .inr (rest.imp_left excused)

omit [DecidableEq ι] in
/-- Only a purge of its application removes a delivery. -/
theorem SystemState.Kept.purged {op : ServiceOp} {delivery : WebhookDelivery}
    (stored : delivery ∈ state.webhooks.db.deliveries)
    (gone : delivery ∉ (op.run environment state.webhooks.db).deliveries) :
    ∃ now, op = .purgeTombstones now ∧ ∀ application ∈ state.webhooks.db.applications,
      application.id = delivery.applicationId → application.deletedAt ≠ none ∧
        ∃ purgeAfter, application.purgeAfter = some purgeAfter ∧ purgeAfter ≤ now := by
  rcases op.audit kept.consistent with steps | ⟨now, rfl⟩
  · obtain ⟨recorded, created, grows⟩ := auditSteps_grow steps
    rw [grows.deliveries] at gone
    exact absurd (List.mem_append_left _ stored) gone
  · refine ⟨now, rfl, fun application listed own => ?_⟩
    rw [ServiceOp.run_purge] at gone
    by_contra keeps
    refine gone (List.mem_filter.mpr ⟨stored, List.any_eq_true.mpr ⟨application, ?_, ?_⟩⟩)
    · rw [List.mem_filter]
      refine ⟨listed, ?_⟩
      rw [Bool.not_eq_true', Bool.and_eq_false_iff, Bool.and_eq_false_iff]
      left
      by_contra both
      rw [not_or, Bool.not_eq_false, Bool.not_eq_false] at both
      obtain ⟨deleted, past⟩ := both
      obtain ⟨purgeAfter, known, past⟩ := (Option.any_eq_true _ _).mp past
      exact keeps ⟨Option.isSome_iff_ne_none.mp deleted, purgeAfter, known, of_decide_eq_true past⟩
    · rw [own]
      exact beq_self_eq_true _

end Steps

omit [DecidableEq ι] in
theorem SystemState.kept_initial : (SystemState.initial ι).Kept environment where
  sound :=
    { keyed := List.nodup_nil
      known := fun _ _ => rfl
      begun := by
        intro worker id now begun
        cases begun
      distinct := by
        intro request start rows selected
        cases selected }
  consistent := Database.consistent_empty environment
  keyed := List.nodup_nil
  reported id := by
    have absent : ((SystemState.initial ι).webhooks.track id).row = none := rfl
    refine ⟨fun row stored => ?_, fun row stored => ?_, fun worker => trivial⟩
    · cases absent.symm.trans stored
    · cases absent.symm.trans stored
  owned _ member := by cases member
  known _ member := by cases member

theorem SystemState.kept_run (actions : List (SystemAction ι)) :
    ((SystemState.initial ι).run environment actions).Kept environment := by
  induction actions using List.reverseRecOn with
  | nil => exact SystemState.kept_initial environment
  | append_singleton actions action ih =>
      rw [SystemState.run, List.foldl_append]
      change SystemState.Kept environment
        (((SystemState.initial ι).run environment actions).step environment action)
      cases action with
      | service op => exact ih.serve op
      | webhooks action =>
          unfold SystemState.step
          dsimp only
          split
          next after performed => exact ih.perform performed
          next => exact ih

/-- In whatever order the workers, the webhook API and the service act, and however workers crash or
outlive their leases: a delivery that was ever enqueued is still pending, and its webhook active, or the
consumer has accepted it, or has refused it `MAX_ATTEMPTS` times, or its webhook was revoked by hand, or
it went with its application.  A delivery is marked delivered only when it was accepted, and abandoned
only for these reasons, and a purge removes only what belongs to applications that are deleted and past
their retention. -/
theorem notifications_not_lost (actions : List (SystemAction ι)) :
    let state := (SystemState.initial ι).run environment actions
    let db := state.webhooks.db
    let trail := state.webhooks.trail
    (∀ id ∈ state.webhooks.issued,
      (∃ delivery ∈ db.deliveries, delivery.id = id ∧ Pending delivery ∧
        ∃ subscription ∈ db.subscriptions, subscription.id = delivery.subscriptionId ∧
          subscription.isActive = true) ∨
      Accepted (trail id) ∨ maxAttempts ≤ failures (trail id) ∨ id.subscriptionId ∈ state.revoked ∨
        id ∈ state.removed) ∧
    (∀ delivery ∈ db.deliveries,
      (delivery.deliveredAt ≠ none → Accepted (trail delivery.id)) ∧
      (delivery.abandonedAt ≠ none → Accepted (trail delivery.id) ∨
        maxAttempts ≤ failures (trail delivery.id) ∨ delivery.subscriptionId ∈ state.revoked)) ∧
    ∀ op : ServiceOp, ∀ delivery ∈ db.deliveries, delivery ∉ (op.run environment db).deliveries →
      ∃ now, op = .purgeTombstones now ∧ ∀ application ∈ db.applications,
        application.id = delivery.applicationId → application.deletedAt ≠ none ∧
          ∃ purgeAfter, application.purgeAfter = some purgeAfter ∧ purgeAfter ≤ now := by
  have kept := SystemState.kept_run (ι := ι) environment actions
  intro state db trail
  have stored : ∀ {delivery}, delivery ∈ db.deliveries → db.delivery? delivery.id = some delivery :=
    Database.delivery?_of_mem kept.sound.keyed
  refine ⟨fun id issued => ?_, fun delivery member => ⟨fun delivered => ?_, fun given_up => ?_⟩,
    fun op delivery member => kept.purged member⟩
  · have done : state.Excused id → Accepted (trail id) ∨ maxAttempts ≤ failures (trail id) ∨
        id.subscriptionId ∈ state.revoked ∨ id ∈ state.removed := by
      rintro ((accepted | refused) | revoked)
      · exact .inl accepted
      · exact .inr (.inl refused)
      · exact .inr (.inr (.inl revoked))
    rcases kept.known id issued with present | excused | removed
    · obtain ⟨delivery, found⟩ := Option.isSome_iff_exists.mp present
      obtain ⟨rfl, member⟩ := Database.delivery?_id found
      by_cases pending : Pending delivery
      · obtain ⟨subscription, listed, own, -, active⟩ := kept.owned delivery member
        rcases active pending with active | excused
        · exact .inl ⟨delivery, member, rfl, pending, subscription, listed, own, active⟩
        · exact .inr (done excused)
      · exact .inr (done (kept.excused found pending))
    · exact .inr (done excused)
    · exact .inr (.inr (.inr (.inr removed)))
  · exact ((kept.reported delivery.id).row delivery (stored member)).delivered delivered
  · have reason := (kept.reported delivery.id).abandoned delivery (stored member) given_up
    rwa [Finished, or_assoc] at reason

end System

end CustomDomain.Webhooks
