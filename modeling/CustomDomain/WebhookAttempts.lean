import CustomDomain.WebhookStatements
import Mathlib.Data.List.Nodup
import Mathlib.Logic.Function.Basic

/-!
# Attempts among each other

Any number of webhook workers, the replays of the API and the other
transactions that touch subscriptions and deliveries, interleaved transaction by
transaction under one clock, a replay also between its `SELECT`s and its
`UPDATE`s.  `perform` is what one of them does next; `Track` is the part of the
system that concerns one delivery, and `perform_track` says once what an action
can do to it.
-/

namespace CustomDomain.Webhooks

open Transaction

/-- Where a worker is in `attempt_delivery`.  `now` is the time the attempt read
when it began, `ticket` the place of its request in the delivery's trail. -/
inductive Phase where
  | idle
  | begun (id : DeliveryId) (now : Time)
  | leased (id : DeliveryId) (now : Time)
  | sending (ticket : Nat) (copy : WebhookDelivery) (now : Time)
  | answered (ticket : Nat) (copy : WebhookDelivery) (now : Time) (answer : Answer)
  deriving DecidableEq

/-- The delivery whose lease the worker took. -/
def Phase.delivery? : Phase → Option DeliveryId
  | .idle | .begun _ _ => none
  | .leased id _ => some id
  | .sending _ copy _ | .answered _ copy _ _ => some copy.id

/-- The worker holds an object of the delivery. -/
def Phase.loads (id : DeliveryId) : Phase → Bool
  | .sending _ copy _ | .answered _ copy _ _ => copy.id = id
  | _ => false

/-- The time a leased attempt began. -/
def Phase.start? : Phase → Option Time
  | .idle | .begun _ _ => none
  | .leased _ now | .sending _ _ now | .answered _ _ now _ => some now

/-- What happens to one delivery: a request begins, its answer comes, the
attempt is recorded, the delivery is given up because its subscription is
revoked, it is replayed. -/
inductive Happening where
  | sent (start at_ : Time)
  | answered (ticket : Nat) (start : Time) (accepted : Bool)
  | settled (ticket : Nat) (outcome : Outcome)
  | dropped
  | replayed
  deriving DecidableEq

/-- Where a request that replays is: its `SELECT`s loaded `rows` at `start`, and its
transaction goes on. -/
inductive Replay where
  | idle
  | selected (start : Time) (rows : List WebhookDelivery)

/-- The object of the delivery that a replay has loaded. -/
def Replay.copy? (id : DeliveryId) : Replay → Option WebhookDelivery
  | .idle => none
  | .selected _ rows => KeyedRows.lookup WebhookDelivery.id rows id

/-- `issued` are the identifiers of all deliveries ever enqueued. -/
structure State (ι : Type) where
  db : Database
  clock : Time
  workers : ι → Phase
  queue : ι → List DeliveryId
  replays : ι → Replay
  trail : DeliveryId → List Happening
  issued : List DeliveryId

/-- The other transactions on subscriptions. -/
inductive SubscriptionOp where
  | create (validateUrl : String → Except String String) (application : Application)
      (url : String) (events : List String) (id : Uuid) (secret : String)
  | revoke (application : Application) (subscriptionId : Uuid)
  | rotate (application : Application) (subscriptionId : Uuid) (secret : String) (grace : Time)
  | settleDeleted

def SubscriptionOp.program (now : Time) : SubscriptionOp → Sql Unit
  | .create validateUrl application url events id secret => do
      let _ ← createSubscription validateUrl application url events id secret now
  | .revoke application subscriptionId => do
      let _ ← revokeSubscription application subscriptionId now
  | .rotate application subscriptionId secret grace => do
      let _ ← rotateSecret application subscriptionId secret grace now
  | .settleDeleted => do
      let _ ← settleDeletedApplications now

/-- What a request replays. -/
inductive ReplayOp where
  | delivery (application : Application) (subscriptionId : Uuid) (id : DeliveryId)
  | deliveries (application : Application) (subscriptionId : Uuid) (since : Time)

/-- The `SELECT`s of `replay_delivery` and `replay_since`. -/
def ReplayOp.select : ReplayOp → Sql (List WebhookDelivery)
  | .delivery application subscriptionId id => do
      let delivery ← selectDelivery application subscriptionId id
      pure [delivery]
  | .deliveries application subscriptionId since => selectSince application subscriptionId since

inductive Action (ι : Type) where
  | tick (at_ : Time)
  | poll (worker : ι) (limit : Nat)
  | next (worker : ι)
  | begin (worker : ι) (id : DeliveryId)
  | lease (worker : ι)
  | load (worker : ι)
  | answer (worker : ι) (answer : Answer)
  | record (worker : ι)
  | crash (worker : ι)
  | select (request : ι) (op : ReplayOp)
  | requeue (request : ι) (now : Time)
  | rollback (request : ι)
  | enqueue (domain : Domain) (event : DomainEvent)
  | subscription (op : SubscriptionOp)
  | deleteSubscription (application : Application) (subscriptionId : Uuid)

namespace State

variable {ι : Type} [DecidableEq ι] (state : State ι)

def put (worker : ι) (phase : Phase) : State ι :=
  { state with workers := Function.update state.workers worker phase }

/-- A worker's next phase, with the rows it commits and what that means for the
delivery it works on. -/
def advance (worker : ι) (phase : Phase) (db : Database) (id : DeliveryId)
    (happenings : List Happening) : State ι :=
  { state with
    db := db
    workers := Function.update state.workers worker phase
    trail := Function.update state.trail id (state.trail id ++ happenings) }

/-- The lease of an attempt that has begun. -/
def lease (worker : ι) : Option (State ι) :=
  match state.workers worker with
  | .begun id now =>
      match (leaseDelivery id now).run state.db with
      | (.ok true, after) => some (state.advance worker (.leased id now) after id [])
      | (.ok false, _) => some (state.put worker .idle)
      | (.error _, _) => none
  | _ => none

/-- The load, with which the request begins or the delivery is given up.  A row
that is gone ends the attempt with an exception. -/
def load (worker : ι) : Option (State ι) :=
  match state.workers worker with
  | .leased id now =>
      match (loadDelivery id now).run state.db with
      | (.ok (.request copy _), _) =>
          some (state.advance worker (.sending (state.trail id).length copy now) state.db id
            [.sent now state.clock])
      | (.ok .revoked, after) => some (state.advance worker .idle after id [.dropped])
      | (.error _, _) => none
  | _ => none

/-- The final update. -/
def record (worker : ι) : Option (State ι) :=
  match state.workers worker with
  | .answered ticket copy now answer =>
      match (recordAttempt copy answer now).run state.db with
      | (.ok outcome, after) =>
          some (state.advance worker .idle after copy.id [.settled ticket outcome])
      | (.error _, _) => none
  | _ => none

/-- The deliveries that the `SELECT`s of a replay load. -/
def selected : Action ι → List DeliveryId
  | .select _ op =>
      match op.select.run state.db with
      | (.ok rows, _) => rows.map (·.id)
      | (.error _, _) => []
  | _ => []

def putReplay (request : ι) (replay : Replay) : State ι :=
  { state with replays := Function.update state.replays request replay }

/-- The `SELECT`s of a replay; one that is refused ends with them. -/
def select (request : ι) (op : ReplayOp) : Option (State ι) :=
  match state.replays request, op.select.run state.db with
  | .idle, (.ok rows, _) => some (state.putReplay request (.selected state.clock rows))
  | _, _ => none

/-- A replay that commits. -/
def replayed (request : ι) (after : Database) : State ι :=
  { state.putReplay request .idle with
    db := after
    trail := fun id =>
      if ((state.replays request).copy? id).isSome then state.trail id ++ [.replayed]
      else state.trail id }

/-- The `UPDATE`s of a replay and its commit, with the time that it read after its `SELECT`s.
The rows are locked in between, so nobody else writes them; where one is gone, the
transaction is rolled back. -/
def requeue (request : ι) (now : Time) : Option (State ι) :=
  match state.replays request with
  | .idle => none
  | .selected start rows =>
      if start ≤ now ∧ now ≤ state.clock then
        match (requeueEach rows now).run state.db with
        | (.ok _, after) => some (state.replayed request after)
        | (.error _, _) => some (state.putReplay request .idle)
      else none

/-- Deliveries are enqueued under identifiers that were not used before. -/
def enqueue (domain : Domain) (event : DomainEvent) : Option (State ι) :=
  let after := (enqueueForEvent domain event).transact state.db
  let issued := (after.deliveries.drop state.db.deliveries.length).map (·.id)
  if (state.issued ++ issued).Nodup then
    some { state with db := after, issued := state.issued ++ issued }
  else none

/-- What one participant does next, if it can. -/
def perform (state : State ι) : Action ι → Option (State ι)
  | .tick at_ => if state.clock ≤ at_ then some { state with clock := at_ } else none
  | .poll worker limit =>
      match state.workers worker, (dueDeliveryIds state.clock limit).run state.db with
      | .idle, (.ok ids, _) => some { state with queue := Function.update state.queue worker ids }
      | _, _ => none
  | .next worker =>
      match state.workers worker, state.queue worker with
      | .idle, id :: rest =>
          some { state.put worker (.begun id state.clock) with
            queue := Function.update state.queue worker rest }
      | _, _ => none
  | .begin worker id =>
      match state.workers worker with
      | .idle => some (state.put worker (.begun id state.clock))
      | _ => none
  | .lease worker => state.lease worker
  | .load worker => state.load worker
  | .answer worker answer =>
      match state.workers worker with
      | .sending ticket copy now =>
          some (state.advance worker (.answered ticket copy now answer) state.db copy.id
            [.answered ticket now answer.error.isNone])
      | _ => none
  | .record worker => state.record worker
  | .crash worker => some (state.put worker .idle)
  | .select request op => state.select request op
  | .requeue request now => state.requeue request now
  | .rollback request => some (state.putReplay request .idle)
  | .enqueue domain event => state.enqueue domain event
  | .subscription op => some { state with db := (op.program state.clock).transact state.db }
  | .deleteSubscription application subscriptionId =>
      some { state with
        db := (CustomDomain.deleteSubscription application subscriptionId).transact state.db }

end State

/-! ## One delivery -/

/-- A worker's phase, as far as it concerns one delivery. -/
def Phase.on (id : DeliveryId) (phase : Phase) : Phase :=
  if phase.delivery? = some id then phase else .idle

/-- The part of the system that concerns one delivery. -/
@[ext] structure Track (ι : Type) where
  row : Option WebhookDelivery
  phase : ι → Phase
  trail : List Happening
  clock : Time
  copies : ι → Option WebhookDelivery

def State.track {ι : Type} (state : State ι) (id : DeliveryId) : Track ι where
  row := state.db.delivery? id
  phase worker := (state.workers worker).on id
  trail := state.trail id
  clock := state.clock
  copies request := (state.replays request).copy? id

/-- What can happen to one delivery. -/
inductive Move (ι : Type) where
  | wait
  | create
  | remove
  | lease (worker : ι)
  | load (worker : ι)
  | drop (worker : ι)
  | answer (worker : ι)
  | settle (worker : ι)
  | crash (worker : ι)
  | select (request : ι)
  | replay (request : ι)
  | release (request : ι)

namespace Track

variable {ι : Type} [DecidableEq ι]

/-- The track with one worker's phase replaced. -/
def put (track : Track ι) (worker : ι) (phase : Phase) : Track ι :=
  { track with phase := Function.update track.phase worker phase }

/-- The track with the object of one replay replaced. -/
def hold (track : Track ι) (request : ι) (copy : Option WebhookDelivery) : Track ι :=
  { track with copies := Function.update track.copies request copy }

inductive Step (track : Track ι) : Move ι → Track ι → Prop where
  | wait {at_ : Time} (later : track.clock ≤ at_) : Step track .wait { track with clock := at_ }
  | create {row : WebhookDelivery} (absent : track.row = none) (unheard : track.trail = [])
      (still : ∀ worker, track.phase worker = .idle)
      (unselected : ∀ request, track.copies request = none) (fresh : row.Fresh) :
      Step track .create { track with row := some row }
  | remove : Step track .remove { track with row := none }
  | lease {worker : ι} {id : DeliveryId} {now : Time} {row : WebhookDelivery}
      (stored : track.row = some row) (dueNow : due row now = true)
      (past : now ≤ track.clock) (still : track.phase worker = .idle) :
      Step track (.lease worker)
        { track.put worker (.leased id now) with
          row := some (leased row now) }
  | load {worker : ι} {id : DeliveryId} {now : Time} {row : WebhookDelivery}
      (held : track.phase worker = .leased id now) (stored : track.row = some row) :
      Step track (.load worker)
        { track.put worker (.sending track.trail.length row now) with
          trail := track.trail ++ [.sent now track.clock] }
  | drop {worker : ι} {id : DeliveryId} {now : Time} {row : WebhookDelivery}
      (held : track.phase worker = .leased id now) (stored : track.row = some row) :
      Step track (.drop worker)
        { track.put worker .idle with
          row := some (dropped row now), trail := track.trail ++ [.dropped] }
  | answer {worker : ι} {ticket : Nat} {copy : WebhookDelivery} {now : Time} {answer : Answer}
      (held : track.phase worker = .sending ticket copy now) :
      Step track (.answer worker)
        { track.put worker (.answered ticket copy now answer) with
          trail := track.trail ++ [.answered ticket now answer.error.isNone] }
  | settle {worker : ι} {ticket : Nat} {copy : WebhookDelivery} {now : Time} {answer : Answer}
      {row : WebhookDelivery} (held : track.phase worker = .answered ticket copy now answer)
      (stored : track.row = some row) :
      Step track (.settle worker)
        { track.put worker .idle with
          row := some (copy.patch (settled copy answer now).1 row)
          trail := track.trail ++ [.settled ticket (settled copy answer now).2] }
  | crash {worker : ι} : Step track (.crash worker) (track.put worker .idle)
  | select {request : ι} {row : WebhookDelivery} (stored : track.row = some row) :
      Step track (.select request) (track.hold request (some row))
  | replay {request : ι} {copy : WebhookDelivery} {now : Time}
      (held : track.copies request = some copy) :
      Step track (.replay request)
        { track.hold request none with
          row := track.row.map (copy.requeuedOver now)
          trail := track.trail ++ [.replayed] }
  | release {request : ι} : Step track (.release request) (track.hold request none)

theorem Step.stay (track : Track ι) : track.Step .wait track := .wait le_rfl

theorem put_idle {track : Track ι} {worker : ι} (still : track.phase worker = .idle) :
    track.put worker .idle = track := by
  unfold put
  rw [← still, Function.update_eq_self]

theorem hold_none {track : Track ι} {request : ι} (unselected : track.copies request = none) :
    track.hold request none = track := by
  unfold hold
  rw [← unselected, Function.update_eq_self]

/-- Nothing was ever heard of the delivery. -/
def blank (clock : Time) : Track ι where
  row := none
  phase _ := .idle
  trail := []
  clock := clock
  copies _ := none

end Track

/-- The action a move comes from, where a condition on runs depends on it. -/
def Move.From {ι : Type} (state : State ι) (id : DeliveryId) (action : Action ι) :
    Move ι → Prop
  | .create => ∃ domain event, action = .enqueue domain event
  | .lease worker => action = .lease worker
  | .load worker | .drop worker => action = .load worker
  | .crash worker => action = .crash worker
  | .select _ => id ∈ state.selected action
  | .replay request => ∃ now, action = .requeue request now
  | _ => True

/-- Identifiers name at most one row, what was never issued was never heard of,
attempts began in the past, and a replay has loaded each row once. -/
structure State.Sound {ι : Type} (state : State ι) : Prop where
  keyed : state.db.DeliveriesKeyed
  known : ∀ id, id ∉ state.issued → state.track id = Track.blank state.clock
  begun : ∀ worker id now, state.workers worker = .begun id now → now ≤ state.clock
  distinct : ∀ request start rows, state.replays request = .selected start rows →
    (rows.map (·.id)).Nodup

section Perform

variable {ι : Type} [DecidableEq ι] {state after : State ι}

theorem State.track_put (worker : ι) (phase : Phase) (id : DeliveryId) :
    (state.put worker phase).track id = (state.track id).put worker (phase.on id) := by
  ext other
  · rfl
  · by_cases same : other = worker
    · subst same
      simp [State.track, State.put, Track.put]
    · simp [State.track, State.put, Track.put, same]
  · rfl
  · rfl
  · rfl

theorem State.advance_track (worker : ι) (phase : Phase) (db : Database) (id : DeliveryId)
    (happenings : List Happening) :
    (state.advance worker phase db id happenings).track id =
      { (state.track id).put worker (phase.on id) with
        row := db.delivery? id, trail := state.trail id ++ happenings } := by
  have put := congrArg Track.phase (state.track_put worker phase id)
  ext1
  · rfl
  · exact put
  · simp [State.track, State.advance]
  · rfl
  · rfl

theorem Phase.on_self {id : DeliveryId} {phase : Phase} (held : phase.delivery? = some id) :
    phase.on id = phase := if_pos held

theorem Phase.on_other {id : DeliveryId} {phase : Phase} (free : phase.delivery? ≠ some id) :
    phase.on id = .idle := if_neg free

/-- A delivery the action does not concern. -/
theorem State.untouched {id : DeliveryId} {action : Action ι}
    (same : after.track id = state.track id) :
    ∃ move, (state.track id).Step move (after.track id) ∧ move.From state id action := by
  rw [same]
  exact ⟨.wait, .stay _, trivial⟩

omit [DecidableEq ι] in
/-- A worker without a lease on the delivery does not show in its track. -/
theorem State.track_idle {worker : ι} {id : DeliveryId}
    (free : (state.workers worker).delivery? ≠ some id) :
    (state.track id).phase worker = .idle :=
  Phase.on_other free

theorem State.put_untouched {worker : ι} {phase : Phase} {id : DeliveryId}
    (free : (state.workers worker).delivery? ≠ some id) (stays : phase.delivery? ≠ some id) :
    (state.put worker phase).track id = state.track id := by
  rw [state.track_put, Phase.on_other stays, Track.put_idle (State.track_idle free)]

theorem State.advance_untouched {worker : ι} {phase : Phase} {db : Database}
    {id other : DeliveryId} {happenings : List Happening} (different : other ≠ id)
    (free : (state.workers worker).delivery? ≠ some other)
    (stays : phase.delivery? ≠ some other)
    (rows : db.delivery? other = state.db.delivery? other) :
    (state.advance worker phase db id happenings).track other = state.track other := by
  have put := congrArg Track.phase (State.put_untouched free stays)
  ext1
  · exact rows
  · exact put
  · simp [State.track, State.advance, different]
  · rfl
  · rfl

variable (sound : state.Sound)

include sound

theorem State.lease_track {worker : ι} (performed : state.lease worker = some after)
    (id : DeliveryId) :
    ∃ move, (state.track id).Step move (after.track id) ∧
      move.From state id (.lease worker) := by
  unfold State.lease at performed
  split at performed
  next leasedId now held =>
    have free : ∀ id, (state.workers worker).delivery? ≠ some id := by
      simp [held, Phase.delivery?]
    have kept : ∀ row, (leased row now).id = row.id := fun _ => rfl
    rw [leaseDelivery_run] at performed
    by_cases ready : (state.db.delivery? leasedId).any (due · now) = true
    · simp only [ready, if_true, Option.some.injEq] at performed
      subst performed
      by_cases same : id = leasedId
      · subst same
        obtain ⟨row, stored, dueNow⟩ := (Option.any_eq_true _ _).mp ready
        refine ⟨.lease worker, ?_, rfl⟩
        rw [State.advance_track, Phase.on_self rfl, List.append_nil,
          Database.delivery?_updateDelivery kept, if_pos rfl, stored]
        exact .lease stored dueNow (sound.begun worker id now held) (State.track_idle (free id))
      · apply State.untouched
        apply State.advance_untouched same (free id)
        · simpa [Phase.delivery?] using Ne.symm same
        · rw [Database.delivery?_updateDelivery kept, if_neg same]
    · simp only [ready, Bool.false_eq_true, if_false, Option.some.injEq] at performed
      subst performed
      exact State.untouched (State.put_untouched (free id) (by simp [Phase.delivery?]))
  next => cases performed

omit sound in
theorem State.load_track {worker : ι} (performed : state.load worker = some after)
    (id : DeliveryId) :
    ∃ move, (state.track id).Step move (after.track id) ∧
      move.From state id (.load worker) := by
  unfold State.load at performed
  split at performed
  next loadedId now held =>
    have others : id ≠ loadedId → (state.workers worker).delivery? ≠ some id := by
      intro different
      simpa [held, Phase.delivery?] using Ne.symm different
    have shown : id = loadedId → (state.track id).phase worker = .leased id now := by
      rintro rfl
      simp [State.track, held, Phase.on, Phase.delivery?]
    have spec := loadDelivery_spec loadedId now state.db
    split at performed
    next copy request _ ran =>
      cases performed
      obtain ⟨row, stored, rfl⟩ := spec.result ran
      have rowId := (Database.delivery?_id stored).1
      by_cases same : id = loadedId
      · refine ⟨.load worker, ?_, rfl⟩
        have leased := shown same
        subst same
        rw [State.advance_track, Phase.on_self (by simp [Phase.delivery?, rowId])]
        exact .load leased stored
      · apply State.untouched
        apply State.advance_untouched same (others same)
        · simpa [Phase.delivery?, rowId] using Ne.symm same
        · rfl
    next changed ran =>
      cases performed
      obtain ⟨row, stored, rfl⟩ := spec.result ran
      by_cases same : id = loadedId
      · refine ⟨.drop worker, ?_, rfl⟩
        have leased := shown same
        subst same
        rw [State.advance_track, Phase.on_other (by simp [Phase.delivery?]),
          Database.delivery?_updateDelivery (by simp), if_pos rfl, stored, Option.map_some,
          patch_dropped]
        exact .drop leased stored
      · apply State.untouched
        apply State.advance_untouched same (others same)
        · simp [Phase.delivery?]
        · rw [Database.delivery?_updateDelivery (by simp), if_neg same]
    next => cases performed
  next => cases performed

omit sound in
theorem State.answer_track {worker : ι} {ticket : Nat} {copy : WebhookDelivery} {now : Time}
    (held : state.workers worker = .sending ticket copy now) (answer : Answer)
    (id : DeliveryId) :
    ∃ move, (state.track id).Step move
        ((state.advance worker (.answered ticket copy now answer) state.db copy.id
          [.answered ticket now answer.error.isNone]).track id) ∧
      move.From state id (.answer worker answer) := by
  by_cases same : id = copy.id
  · subst same
    refine ⟨.answer worker, ?_, trivial⟩
    rw [State.advance_track, Phase.on_self rfl]
    have held : (state.track copy.id).phase worker = .sending ticket copy now := by
      simp [State.track, held, Phase.on, Phase.delivery?]
    exact .answer held
  · apply State.untouched
    apply State.advance_untouched same
    · simpa [held, Phase.delivery?] using Ne.symm same
    · simpa [Phase.delivery?] using Ne.symm same
    · rfl

omit sound in
theorem State.record_track {worker : ι} (performed : state.record worker = some after)
    (id : DeliveryId) :
    ∃ move, (state.track id).Step move (after.track id) ∧
      move.From state id (.record worker) := by
  unfold State.record at performed
  split at performed
  next ticket copy now answer held =>
    have spec := recordAttempt_spec copy answer now state.db
    split at performed
    next outcome changed ran =>
      cases performed
      obtain ⟨stored, rfl, rfl⟩ := spec.result ran
      obtain ⟨row, stored⟩ := Option.isSome_iff_exists.mp stored
      by_cases same : id = copy.id
      · subst same
        refine ⟨.settle worker, ?_, trivial⟩
        rw [State.advance_track, Phase.on_other (by simp [Phase.delivery?]),
          Database.delivery?_updateDelivery (by simp), if_pos rfl, stored, Option.map_some]
        have held : (state.track copy.id).phase worker = .answered ticket copy now answer := by
          simp [State.track, held, Phase.on, Phase.delivery?]
        exact .settle held stored
      · apply State.untouched
        apply State.advance_untouched same
        · simpa [held, Phase.delivery?] using Ne.symm same
        · simp [Phase.delivery?]
        · rw [Database.delivery?_updateDelivery (by simp), if_neg same]
    next => cases performed
  next => cases performed

omit sound in
theorem State.crash_track (worker : ι) (id : DeliveryId) :
    ∃ move, (state.track id).Step move ((state.put worker .idle).track id) ∧
      move.From state id (.crash worker) := by
  refine ⟨.crash worker, ?_, rfl⟩
  rw [State.track_put, Phase.on_other (by simp [Phase.delivery?])]
  exact .crash

omit [DecidableEq ι] sound in
theorem ReplayOp.select_spec (op : ReplayOp) {db : Database} (keyed : db.DeliveriesKeyed) :
    op.select.Ensures db fun rows after => after = db ∧ db.Selects rows := by
  cases op with
  | delivery application subscriptionId id =>
      apply (selectDelivery_spec keyed application subscriptionId id).bind
      rintro delivery _ ⟨rfl, selects⟩
      exact .of_pure ⟨rfl, selects⟩
  | deliveries application subscriptionId since =>
      exact selectSince_spec keyed application subscriptionId since

omit sound in
theorem State.track_putReplay (request : ι) (replay : Replay) (id : DeliveryId) :
    (state.putReplay request replay).track id =
      (state.track id).hold request (replay.copy? id) := by
  ext1
  · rfl
  · rfl
  · rfl
  · rfl
  · funext other
    by_cases same : other = request
    · subst same
      simp [State.track, State.putReplay, Track.hold]
    · simp [State.track, State.putReplay, Track.hold, same]

theorem State.select_track {request : ι} {op : ReplayOp}
    (performed : state.select request op = some after) (id : DeliveryId) :
    ∃ move, (state.track id).Step move (after.track id) ∧
      move.From state id (.select request op) := by
  have spec := op.select_spec sound.keyed
  unfold State.select at performed
  split at performed
  next rows changed idle ran =>
    cases performed
    obtain ⟨-, selects⟩ := spec.result ran
    have loaded : state.selected (.select request op : Action ι) = rows.map (·.id) := by
      simp [State.selected, ran]
    rw [State.track_putReplay, Replay.copy?]
    cases found : KeyedRows.lookup WebhookDelivery.id rows id with
    | none =>
        have free : (state.track id).copies request = none := by
          simp [State.track, idle, Replay.copy?]
        rw [Track.hold_none free]
        exact ⟨.wait, .stay _, trivial⟩
    | some row =>
        have member := KeyedRows.mem_of_lookup found
        obtain rfl := KeyedRows.key_of_lookup found
        refine ⟨.select request, .select (selects.stored row member), ?_⟩
        rw [Move.From, loaded]
        exact List.mem_map_of_mem member
  next => cases performed

omit sound in
theorem State.rollback_track (request : ι) (id : DeliveryId) (action : Action ι) :
    ∃ move, (state.track id).Step move ((state.putReplay request .idle).track id) ∧
      move.From state id action := by
  rw [State.track_putReplay]
  exact ⟨.release request, .release, trivial⟩

/-- A replay that commits queues the deliveries again that it has loaded. -/
theorem State.requeue_track {request : ι} {now : Time}
    (performed : state.requeue request now = some after) (id : DeliveryId) :
    ∃ move, (state.track id).Step move (after.track id) ∧
      move.From state id (.requeue request now) := by
  unfold State.requeue at performed
  split at performed
  next => cases performed
  next start rows selected =>
    have nodup := sound.distinct request start rows selected
    have spec := requeueEach_spec sound.keyed now nodup
    split_ifs at performed
    split at performed
    next changed ran =>
      cases performed
      have row := (spec.result ran).rows id
      have copies : (state.replays request).copy? id =
          KeyedRows.lookup WebhookDelivery.id rows id := by rw [selected]; rfl
      have held : ((state.putReplay request .idle).track id).copies =
          ((state.track id).hold request none).copies :=
        congrArg Track.copies (State.track_putReplay request .idle id)
      cases found : KeyedRows.lookup WebhookDelivery.id rows id with
      | none =>
          rw [found] at row copies
          apply State.untouched
          have unheld : (state.track id).hold request none = state.track id := Track.hold_none copies
          rw [← unheld]
          ext1
          · exact row
          · rfl
          · simp [State.track, State.replayed, Track.hold, copies]
          · rfl
          · exact held
      | some copy =>
          rw [found] at row copies
          refine ⟨.replay request, ?_, now, rfl⟩
          have reached : (state.replayed request changed).track id =
              { (state.track id).hold request none with
                row := (state.track id).row.map (copy.requeuedOver now)
                trail := (state.track id).trail ++ [.replayed] } := by
            ext1
            · exact row
            · rfl
            · simp [State.track, State.replayed, copies]
            · rfl
            · exact held
          rw [reached]
          exact .replay copies
    next =>
      cases performed
      exact State.rollback_track request id _

/-- Under a fresh identifier a delivery appears; under others nothing changes. -/
theorem State.enqueue_track {domain : Domain} {event : DomainEvent}
    (performed : state.enqueue domain event = some after) (id : DeliveryId) :
    ∃ move, (state.track id).Step move (after.track id) ∧
      move.From state id (.enqueue domain event) := by
  obtain ⟨_, changed, ran⟩ := (enqueueForEvent_fresh domain event state.db).returns
  obtain ⟨new, rows, fresh⟩ := (enqueueForEvent_fresh domain event state.db).result ran
  simp only [State.enqueue, Program.transact_of_ok ran, rows, List.drop_left] at performed
  split_ifs at performed with nodup
  cases performed
  have found : changed.delivery? id =
      (state.db.delivery? id).or (KeyedRows.lookup WebhookDelivery.id new id) := by
    rw [Database.delivery?, rows]
    exact KeyedRows.lookup_append new
  by_cases issued : id ∈ state.issued
  · apply State.untouched
    have absent : KeyedRows.lookup WebhookDelivery.id new id = none := by
      rw [KeyedRows.lookup_eq_none]
      intro delivery member same
      have disjoint := List.disjoint_of_nodup_append nodup
      exact disjoint issued (same ▸ List.mem_map_of_mem member)
    ext1
    · simp [State.track, found, absent]
    · rfl
    · rfl
    · rfl
    · rfl
  · have blank := sound.known id issued
    have absent : state.db.delivery? id = none := congrArg Track.row blank
    rw [absent, Option.none_or] at found
    cases row : KeyedRows.lookup WebhookDelivery.id new id with
    | none =>
        apply State.untouched
        ext1
        · simp [State.track, found, row, absent]
        · rfl
        · rfl
        · rfl
        · rfl
    | some delivery =>
        refine ⟨.create, ?_, domain, event, rfl⟩
        rw [row] at found
        have reached : ({ state with
              db := changed, issued := state.issued ++ new.map (·.id) } : State ι).track id =
            { state.track id with row := some delivery } := by
          simp [State.track, found]
        rw [reached]
        apply Track.Step.create absent
        · exact congrArg Track.trail blank
        · intro worker
          exact congrFun (congrArg Track.phase blank) worker
        · intro request
          exact congrFun (congrArg Track.copies blank) request
        · exact fresh delivery (KeyedRows.mem_of_lookup row)

omit sound in
/-- A transaction that leaves the deliveries alone. -/
theorem State.track_of_deliveries {db : Database} {action : Action ι}
    (same : db.deliveries = state.db.deliveries) (id : DeliveryId) :
    ∃ move, (state.track id).Step move (({ state with db := db } : State ι).track id) ∧
      move.From state id action := by
  apply State.untouched
  simp [State.track, Database.delivery?, same]

omit [DecidableEq ι] sound in
theorem SubscriptionOp.program_deliveries (op : SubscriptionOp) (now : Time) (db : Database) :
    ((op.program now).transact db).deliveries = db.deliveries := by
  suffices spec : (op.program now).Ensures db fun _ after =>
      after.deliveries = db.deliveries by
    refine Program.Spec.transact ?_ spec
    rfl
  cases op with
  | create validateUrl application url events id secret =>
      apply (createSubscription_deliveries validateUrl application url events id secret now db).bind
      intro _ _ same
      exact .of_pure same
  | revoke application subscriptionId =>
      apply (revokeSubscription_deliveries application subscriptionId now db).bind
      intro _ _ same
      exact .of_pure same
  | rotate application subscriptionId secret grace =>
      apply (rotateSecret_deliveries application subscriptionId secret grace now db).bind
      intro _ _ same
      exact .of_pure same
  | settleDeleted =>
      apply (settleDeletedApplications_deliveries now db).bind
      intro _ _ same
      exact .of_pure same

omit sound in
theorem State.deleteSubscription_track (application : Application) (subscriptionId : Uuid)
    (id : DeliveryId) :
    ∃ move, (state.track id).Step move (({ state with
        db := (CustomDomain.deleteSubscription application subscriptionId).transact
          state.db } : State ι).track id) ∧
      move.From state id (.deleteSubscription application subscriptionId) := by
  have spec := deleteSubscription_spec application subscriptionId state.db
  rcases ran : (CustomDomain.deleteSubscription application subscriptionId).run state.db with
    ⟨_ | _, changed⟩
  · rw [Program.transact_of_error ran]
    exact State.untouched rfl
  · rw [Program.transact_of_ok ran, spec.result ran]
    by_cases owned : id.subscriptionId = subscriptionId
    · refine ⟨.remove, ?_, trivial⟩
      have gone : (state.db.withoutSubscription subscriptionId).delivery? id = none := by
        apply KeyedRows.lookup_eq_none.mpr
        intro delivery member same
        subst same
        have kept := List.of_mem_filter member
        simp only [decide_eq_true_eq] at kept
        exact kept owned
      have reached : ({ state with
            db := state.db.withoutSubscription subscriptionId } : State ι).track id =
          { state.track id with row := none } := by
        simp [State.track, gone]
      rw [reached]
      exact .remove
    · apply State.untouched
      have kept : (state.db.withoutSubscription subscriptionId).delivery? id =
          state.db.delivery? id := by
        unfold Database.delivery? Database.withoutSubscription
        rw [List.find?_filter]
        congr 1
        funext delivery
        by_cases same : delivery.id = id
        · have other : delivery.subscriptionId ≠ subscriptionId := by
            subst same
            exact owned
          simp [other]
        · simp [same]
      simp [State.track, kept]

/-- What an action can do to one delivery. -/
theorem perform_track {action : Action ι} (performed : state.perform action = some after)
    (id : DeliveryId) :
    ∃ move, (state.track id).Step move (after.track id) ∧ move.From state id action := by
  cases action with
  | tick at_ =>
      simp only [State.perform] at performed
      split_ifs at performed with later
      cases performed
      exact ⟨.wait, .wait later, trivial⟩
  | poll worker limit =>
      simp only [State.perform] at performed
      split at performed
      · cases performed
        exact State.untouched rfl
      · cases performed
  | next worker =>
      simp only [State.perform] at performed
      split at performed
      next queue nextId rest held queued =>
        cases performed
        apply State.untouched
        have same : (state.put worker (.begun nextId state.clock)).track id = state.track id :=
          State.put_untouched (by simp [held, Phase.delivery?]) (by simp [Phase.delivery?])
        exact same
      next => cases performed
  | begin worker begunId =>
      simp only [State.perform] at performed
      split at performed
      next held =>
        cases performed
        apply State.untouched
        exact State.put_untouched (by simp [held, Phase.delivery?]) (by simp [Phase.delivery?])
      next => cases performed
  | lease worker => exact State.lease_track sound performed id
  | load worker => exact State.load_track performed id
  | answer worker answer =>
      simp only [State.perform] at performed
      split at performed
      next ticket copy now held =>
        cases performed
        exact State.answer_track held answer id
      next => cases performed
  | record worker => exact State.record_track performed id
  | crash worker =>
      cases performed
      exact State.crash_track worker id
  | select request op => exact State.select_track sound performed id
  | requeue request now => exact State.requeue_track sound performed id
  | rollback request =>
      cases performed
      exact State.rollback_track request id _
  | enqueue domain event => exact State.enqueue_track sound performed id
  | subscription op =>
      cases performed
      exact State.track_of_deliveries (op.program_deliveries state.clock state.db) id
  | deleteSubscription application subscriptionId =>
      cases performed
      exact State.deleteSubscription_track application subscriptionId id

omit [DecidableEq ι] in
theorem State.Sound.issued {delivery : WebhookDelivery}
    (stored : delivery ∈ state.db.deliveries) : delivery.id ∈ state.issued := by
  by_contra missing
  have absent : state.db.delivery? delivery.id = none :=
    congrArg Track.row (sound.known delivery.id missing)
  exact KeyedRows.lookup_eq_none.mp absent delivery stored rfl

omit [DecidableEq ι] in
theorem State.enqueue_keyed {domain : Domain} {event : DomainEvent}
    (performed : state.enqueue domain event = some after) :
    after.db.DeliveriesKeyed ∧ state.issued ⊆ after.issued ∧
      ∀ delivery ∈ after.db.deliveries, delivery.id ∈ after.issued := by
  obtain ⟨_, changed, ran⟩ := (enqueueForEvent_fresh domain event state.db).returns
  obtain ⟨new, rows, -⟩ := (enqueueForEvent_fresh domain event state.db).result ran
  simp only [State.enqueue, Program.transact_of_ok ran, rows, List.drop_left] at performed
  split_ifs at performed with nodup
  cases performed
  have issued : ∀ delivery ∈ changed.deliveries, delivery.id ∈ state.issued ++ new.map (·.id) := by
    intro delivery member
    rw [rows, List.mem_append] at member
    cases member with
    | inl old => exact List.mem_append_left _ (sound.issued old)
    | inr added => exact List.mem_append_right _ (List.mem_map_of_mem added)
  refine ⟨?_, List.subset_append_left _ _, issued⟩
  unfold Database.DeliveriesKeyed
  dsimp only
  rw [rows, List.map_append, List.nodup_append']
  refine ⟨sound.keyed, nodup.of_append_right, ?_⟩
  intro id old added
  obtain ⟨delivery, member, rfl⟩ := List.mem_map.mp old
  exact List.disjoint_of_nodup_append nodup (sound.issued member) added

/-- What an action leaves of the whole system. -/
inductive State.Shape (state : State ι) : State ι → Prop where
  | quiet {at_ : Time} {queue : ι → List DeliveryId} (later : state.clock ≤ at_) :
      Shape state { state with clock := at_, queue := queue }
  | begin {worker : ι} {id : DeliveryId} {queue : ι → List DeliveryId} :
      Shape state { state.put worker (.begun id state.clock) with queue := queue }
  | leave {worker : ι} : Shape state (state.put worker .idle)
  | advance {worker : ι} {phase : Phase} {db : Database} {id : DeliveryId}
      {happenings : List Happening} (ahead : ∀ id now, phase ≠ .begun id now)
      (keyed : db.DeliveriesKeyed) : Shape state (state.advance worker phase db id happenings)
  | commit {db : Database} {trail : DeliveryId → List Happening} {issued : List DeliveryId}
      (keyed : db.DeliveriesKeyed) (grown : state.issued ⊆ issued) :
      Shape state { state with db := db, trail := trail, issued := issued }
  | replay {db : Database} {trail : DeliveryId → List Happening} {request : ι} {replay : Replay}
      (keyed : db.DeliveriesKeyed)
      (distinct : ∀ start rows, replay = .selected start rows → (rows.map (·.id)).Nodup) :
      Shape state { state.putReplay request replay with db := db, trail := trail }

theorem perform_shape {action : Action ι} (performed : state.perform action = some after) :
    state.Shape after := by
  have keyed := sound.keyed
  cases action with
  | tick at_ =>
      simp only [State.perform] at performed
      split_ifs at performed with later
      cases performed
      exact .quiet later
  | poll worker limit =>
      simp only [State.perform] at performed
      split at performed
      · cases performed
        exact .quiet le_rfl
      · cases performed
  | next worker =>
      simp only [State.perform] at performed
      split at performed
      · cases performed
        exact .begin
      · cases performed
  | begin worker id =>
      simp only [State.perform] at performed
      split at performed
      · cases performed
        exact .begin
      · cases performed
  | lease worker =>
      simp only [State.perform, State.lease, leaseDelivery_run] at performed
      split at performed
      next id now held =>
        have kept : ∀ row, (leased row now).id = row.id := fun _ => rfl
        split at performed
        next granted =>
          split_ifs at granted
          · cases granted
            cases performed
            exact .advance (by simp) (keyed.update kept _)
          · cases granted
        next =>
          cases performed
          exact .leave
        next => cases performed
      next => cases performed
  | load worker =>
      simp only [State.perform, State.load] at performed
      split at performed
      next id now held =>
        have spec := loadDelivery_spec id now state.db
        split at performed
        next =>
          cases performed
          exact .advance (by simp) keyed
        next ran =>
          cases performed
          obtain ⟨row, -, rfl⟩ := spec.result ran
          exact .advance (by simp) (keyed.update (by simp) _)
        next => cases performed
      next => cases performed
  | answer worker answer =>
      simp only [State.perform] at performed
      split at performed
      · cases performed
        exact .advance (by simp) keyed
      · cases performed
  | record worker =>
      simp only [State.perform, State.record] at performed
      split at performed
      next ticket copy now answer held =>
        have spec := recordAttempt_spec copy answer now state.db
        split at performed
        next ran =>
          cases performed
          obtain ⟨-, -, rfl⟩ := spec.result ran
          exact .advance (by simp) (keyed.update (by simp) _)
        next => cases performed
      next => cases performed
  | crash worker =>
      cases performed
      exact .leave
  | select request op =>
      simp only [State.perform, State.select] at performed
      split at performed
      next rows changed idle ran =>
        cases performed
        refine .replay keyed fun start found same => ?_
        cases same
        exact ((op.select_spec keyed).result ran).2.nodup
      next => cases performed
  | requeue request now =>
      simp only [State.perform, State.requeue] at performed
      split at performed
      next => cases performed
      next start rows selected =>
        have spec := requeueEach_spec keyed now (sound.distinct request start rows selected)
        split_ifs at performed
        split at performed
        next ran =>
          cases performed
          exact .replay (spec.result ran).keyed fun _ _ same => Replay.noConfusion same
        next =>
          cases performed
          exact .replay keyed fun _ _ same => Replay.noConfusion same
  | rollback request =>
      cases performed
      exact .replay keyed fun _ _ same => Replay.noConfusion same
  | enqueue domain event =>
      have enqueued := State.enqueue_keyed sound performed
      simp only [State.perform, State.enqueue] at performed
      split_ifs at performed
      cases performed
      exact .commit enqueued.1 enqueued.2.1
  | subscription op =>
      cases performed
      refine .commit ?_ (List.Subset.refl _)
      unfold Database.DeliveriesKeyed
      rw [op.program_deliveries]
      exact keyed
  | deleteSubscription application subscriptionId =>
      cases performed
      have spec := deleteSubscription_spec application subscriptionId state.db
      refine .commit (Program.Spec.transact keyed (spec.weaken ?_)) (List.Subset.refl _)
      rintro _ _ rfl
      exact List.Nodup.sublist (List.filter_sublist.map _) keyed

theorem perform_begun {action : Action ι} (performed : state.perform action = some after)
    (worker : ι) (id : DeliveryId) (now : Time) (begun : after.workers worker = .begun id now) :
    now ≤ after.clock := by
  cases perform_shape sound performed with
  | quiet later => exact (sound.begun worker id now begun).trans later
  | @begin moved begunId queue =>
      by_cases same : worker = moved
      · subst same
        simp only [State.put, Function.update_self, Phase.begun.injEq] at begun
        exact le_of_eq begun.2.symm
      · simp only [State.put, Function.update_of_ne same] at begun
        exact sound.begun worker id now begun
  | @leave moved =>
      by_cases same : worker = moved
      · subst same
        simp [State.put] at begun
      · simp only [State.put, Function.update_of_ne same] at begun
        exact sound.begun worker id now begun
  | @advance moved phase db noted happenings ahead keyed =>
      by_cases same : worker = moved
      · subst same
        simp only [State.advance, Function.update_self] at begun
        exact absurd begun (ahead id now)
      · simp only [State.advance, Function.update_of_ne same] at begun
        exact sound.begun worker id now begun
  | commit | replay => exact sound.begun worker id now begun

theorem perform_distinct {action : Action ι} (performed : state.perform action = some after)
    (request : ι) (start : Time) (rows : List WebhookDelivery)
    (selected : after.replays request = .selected start rows) : (rows.map (·.id)).Nodup := by
  cases perform_shape sound performed with
  | quiet | begin | leave | advance | commit =>
      exact sound.distinct request start rows selected
  | @replay db trail moved replay keyed distinct =>
      by_cases same : request = moved
      · subst same
        exact distinct start rows (by simpa [State.putReplay] using selected)
      · exact sound.distinct request start rows (by simpa [State.putReplay, same] using selected)

theorem perform_issued {action : Action ι} (performed : state.perform action = some after) :
    state.issued ⊆ after.issued := by
  cases perform_shape sound performed with
  | quiet | begin | leave | advance | replay => exact List.Subset.refl _
  | commit keyed grown => exact grown

/-- Actions keep the system sound. -/
theorem perform_sound {action : Action ι} (performed : state.perform action = some after) :
    after.Sound where
  keyed := by
    cases perform_shape sound performed with
    | quiet | begin | leave => exact sound.keyed
    | advance ahead keyed => exact keyed
    | commit keyed => exact keyed
    | replay keyed => exact keyed
  begun := perform_begun sound performed
  distinct := perform_distinct sound performed
  known := by
    intro id missing
    have before := sound.known id fun issued => missing (perform_issued sound performed issued)
    obtain ⟨move, step, origin⟩ := perform_track sound performed id
    rw [before] at step
    generalize reached : after.track id = track at step
    have clock : after.clock = track.clock := congrArg Track.clock reached
    rw [clock]
    cases step with
    | wait => rfl
    | create absent unheard still unselected fresh =>
        -- A delivery that appears was enqueued under an identifier issued with it.
        obtain ⟨domain, event, rfl⟩ := origin
        have stored := congrArg Track.row reached
        obtain ⟨same, member⟩ := Database.delivery?_id stored
        have issued := (State.enqueue_keyed sound performed).2.2 _ member
        exact absurd (same ▸ issued) missing
    | remove => rfl
    | lease stored => cases stored
    | load held => cases held
    | drop held => cases held
    | answer held => cases held
    | settle held => cases held
    | crash => exact Track.put_idle rfl
    | select stored => cases stored
    | replay held => cases held
    | release => exact Track.hold_none rfl

end Perform

/-! ## Runs -/

/-- The states a run can reach whose steps all meet a condition. -/
inductive Reaches {ι : Type} [DecidableEq ι] (condition : State ι → Action ι → State ι → Prop)
    (start : State ι) : State ι → Prop where
  | start : Reaches condition start start
  | step {state after : State ι} {action : Action ι} (before : Reaches condition start state)
      (performed : state.perform action = some after) (met : condition state action after) :
      Reaches condition start after

section Runs

variable {ι : Type} [DecidableEq ι] {condition : State ι → Action ι → State ι → Prop}
  {start state : State ι}

theorem Reaches.sound (sound : start.Sound) (reaches : Reaches condition start state) :
    state.Sound := by
  induction reaches with
  | start => exact sound
  | step before performed met ih => exact perform_sound ih performed

/-- What every step keeps of one delivery, every run keeps. -/
theorem Reaches.track {holds : Track ι → Prop} {id : DeliveryId} (sound : start.Sound)
    (first : holds (start.track id))
    (kept : ∀ {state after : State ι} {action : Action ι} {move : Move ι}, state.Sound →
      condition state action after → move.From state id action →
      (state.track id).Step move (after.track id) → holds (state.track id) →
      holds (after.track id))
    (reaches : Reaches condition start state) : holds (state.track id) := by
  induction reaches with
  | start => exact first
  | step before performed met ih =>
      have sound := before.sound sound
      obtain ⟨move, step, origin⟩ := perform_track sound performed id
      exact kept sound met origin step ih

/-- Run a list of actions, each of which has to meet the condition. -/
def State.follow (condition : State ι → Action ι → State ι → Prop)
    [∀ state action after, Decidable (condition state action after)] (state : State ι) :
    List (Action ι) → Option (State ι)
  | [] => some state
  | action :: actions =>
      match state.perform action with
      | none => none
      | some after =>
          if condition state action after then after.follow condition actions else none

theorem Reaches.of_follow [∀ state action after, Decidable (condition state action after)]
    {actions : List (Action ι)} {final : State ι} (reached : Reaches condition start state)
    (followed : state.follow condition actions = some final) :
    Reaches condition start final := by
  induction actions generalizing state with
  | nil =>
      cases followed
      exact reached
  | cons action actions ih =>
      simp only [State.follow] at followed
      split at followed
      next => cases followed
      next after performed =>
        split at followed
        next met => exact ih (reached.step performed met) followed
        next => cases followed

end Runs

/-! ## A system to run -/

def sampleSubscription : WebhookSubscription where
  id := 7
  applicationId := sampleApplication.id
  url := "https://consumer.example.com/hook"
  events := [.ready]
  secret := "whsec_sample"
  createdAt := 0

def sampleEvent : DomainEvent where
  domainId := 3
  applicationId := sampleApplication.id
  payload := .statusChanged .provisioning .ready none
  createdAt := 0

def sampleDelivery : WebhookDelivery where
  subscriptionId := sampleSubscription.id
  applicationId := sampleApplication.id
  event := sampleEvent
  eventType := .ready
  domain :=
    { id := 3
      applicationId := sampleApplication.id
      hostname := "www.customer.com"
      reference := "workspace"
      status := .ready
      createdAt := 0
      updatedAt := 0 }
  nextAttemptAt := some 0
  createdAt := 0

/-- Two workers, one subscription, and one delivery of it with the given number
of attempts behind it. -/
def sampleState (attempts : Nat) : State Bool where
  db :=
    { applications := [sampleApplication]
      subscriptions := [sampleSubscription]
      deliveries := [{ sampleDelivery with attempts := attempts }] }
  clock := 0
  workers _ := .idle
  queue _ := []
  replays _ := .idle
  trail _ := []
  issued := [sampleDelivery.id]

theorem sampleState_sound (attempts : Nat) : (sampleState attempts).Sound where
  keyed := List.nodup_singleton _
  known := by
    intro id missing
    have absent : (sampleState attempts).db.delivery? id = none := by
      apply KeyedRows.lookup_eq_none.mpr
      intro delivery member same
      apply missing
      rw [List.mem_singleton.mp member] at same
      exact List.mem_singleton.mpr same.symm
    ext1
    · exact absent
    · rfl
    · rfl
    · rfl
    · rfl
  begun := by
    intro worker id now begun
    cases begun
  distinct := by
    intro request start rows selected
    cases selected

end CustomDomain.Webhooks
