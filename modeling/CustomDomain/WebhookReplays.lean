import CustomDomain.WebhookLeases

/-!
# Replays and overlapping attempts

What becomes of a delivery when replays are made and attempts may outlive their
leases.  The final update of an attempt writes the columns it changed on the
object it loaded, so an attempt that overlaps a replay or another attempt can
undo what the other did; the conditions here are the overlaps that do not.
-/

namespace CustomDomain.Webhooks

open EventHistory

section Exclusive

variable {ι : Type} [DecidableEq ι]

/-! ## One terminal column -/

/-- The worker that asks for a lease. -/
def Action.leasing : Action ι → Option ι
  | .lease worker => some worker
  | _ => none

/-- No lease is granted while another attempt of the delivery is under way. -/
def NoOverlap (state : State ι) (action : Action ι) (after : State ι) : Prop :=
  ∀ worker ∈ action.leasing, ∀ id ∈ (after.workers worker).delivery?,
    ∀ other, other ≠ worker → (state.workers other).delivery? ≠ some id

instance [Fintype ι] (state : State ι) (action : Action ι) (after : State ι) :
    Decidable (NoOverlap state action after) :=
  inferInstanceAs (Decidable (∀ worker ∈ action.leasing, _))

def Unsettled (row : WebhookDelivery) : Prop :=
  row.deliveredAt = none ∧ row.abandonedAt = none

/-- At most one attempt is under way, and while it is the delivery is not
settled. -/
structure SettledOnce (track : Track ι) : Prop where
  exclusive : ∀ row, track.row = some row → row.deliveredAt = none ∨ row.abandonedAt = none
  single : ∀ first second, track.phase first ≠ .idle → track.phase second ≠ .idle →
    first = second
  unsettled : ∀ worker, track.phase worker ≠ .idle → ∀ row, track.row = some row → Unsettled row
  loaded : ∀ worker ticket copy now, track.phase worker = .sending ticket copy now →
    Unsettled copy
  answered : ∀ worker ticket copy now answer,
    track.phase worker = .answered ticket copy now answer → Unsettled copy

theorem Unsettled.exclusive {row : WebhookDelivery} (unsettled : Unsettled row) :
    row.deliveredAt = none ∨ row.abandonedAt = none := .inl unsettled.1

namespace SettledOnce

variable {track after : Track ι}

/-- Another row, and one worker's phase with it. -/
theorem put (settledOnce : SettledOnce track) {worker : ι} {phase : Phase}
    {row : Option WebhookDelivery} (alone : ∀ other, other ≠ worker → phase ≠ .idle →
      track.phase other = .idle)
    (exclusive : ∀ stored, row = some stored →
      stored.deliveredAt = none ∨ stored.abandonedAt = none)
    (unsettled : (∃ other, (track.put worker phase).phase other ≠ .idle) →
      ∀ stored, row = some stored → Unsettled stored)
    (loaded : ∀ ticket copy now, phase = .sending ticket copy now → Unsettled copy)
    (answered : ∀ ticket copy now answer, phase = .answered ticket copy now answer →
      Unsettled copy) (trail : List Happening) :
    SettledOnce { track.put worker phase with row := row, trail := trail } where
  exclusive := exclusive
  single := by
    intro first second left right
    by_cases busy : phase = .idle
    · have others : ∀ other, (track.put worker phase).phase other ≠ .idle →
          track.phase other ≠ .idle := by
        intro other active
        by_cases same : other = worker
        · simp [Track.put, same, busy] at active
        · simpa [Track.put, same] using active
      exact settledOnce.single first second (others first left) (others second right)
    · have isWorker : ∀ other, (track.put worker phase).phase other ≠ .idle → other = worker := by
        intro other active
        by_contra different
        apply active
        simpa [Track.put, different] using alone other different busy
      exact (isWorker first left).trans (isWorker second right).symm
  unsettled := fun other active => unsettled ⟨other, active⟩
  loaded := by
    intro other ticket copy now held
    by_cases same : other = worker
    · exact loaded ticket copy now (by simpa [Track.put, same] using held)
    · exact settledOnce.loaded other ticket copy now (by simpa [Track.put, same] using held)
  answered := by
    intro other ticket copy now answer held
    by_cases same : other = worker
    · exact answered ticket copy now answer (by simpa [Track.put, same] using held)
    · exact settledOnce.answered other ticket copy now answer
        (by simpa [Track.put, same] using held)

/-- The worker leaves the delivery, so nobody has a hand on it. -/
theorem left (settledOnce : SettledOnce track) {worker : ι} (busy : track.phase worker ≠ .idle) :
    ¬ ∃ other, (track.put worker .idle).phase other ≠ .idle := by
  rintro ⟨other, active⟩
  by_cases same : other = worker
  · simp [Track.put, same] at active
  · have active' : track.phase other ≠ .idle := by simpa [Track.put, same] using active
    exact same (settledOnce.single other worker active' busy)

theorem step {move : Move ι} (settledOnce : SettledOnce track) (step : track.Step move after)
    (apart : ∀ worker, move = .lease worker → ∀ other, other ≠ worker →
      track.phase other = .idle) : SettledOnce after := by
  cases step with
  | wait later =>
      exact ⟨settledOnce.exclusive, settledOnce.single, settledOnce.unsettled,
        settledOnce.loaded, settledOnce.answered⟩
  | create absent unheard still unselected fresh =>
      refine ⟨?_, settledOnce.single, ?_, settledOnce.loaded, settledOnce.answered⟩
      · rintro _ ⟨⟩
        exact .inl fresh.deliveredAt
      · intro worker busy
        exact absurd (still worker) busy
  | remove =>
      refine ⟨?_, settledOnce.single, ?_, settledOnce.loaded, settledOnce.answered⟩
      · rintro _ ⟨⟩
      · rintro _ _ _ ⟨⟩
  | @lease worker id now row stored dueNow past still =>
      simp only [due, Bool.and_eq_true, Option.isNone_iff_eq_none] at dueNow
      have unsettled : ∀ stored, some (leased row now) = some stored → Unsettled stored := by
        rintro _ ⟨⟩
        exact dueNow.1
      apply settledOnce.put
      · intro other different _
        exact apart worker rfl other different
      · intro stored same
        exact (unsettled stored same).exclusive
      · intro _
        exact unsettled
      · rintro _ _ _ ⟨⟩
      · rintro _ _ _ _ ⟨⟩
  | @load worker id now row held stored =>
      have busy : track.phase worker ≠ .idle := by rw [held]; exact Phase.noConfusion
      have unsettled := settledOnce.unsettled worker busy
      apply settledOnce.put
      · intro other different _
        by_contra active
        exact different (settledOnce.single other worker active busy)
      · intro row' same
        exact (unsettled row' same).exclusive
      · intro _
        exact unsettled
      · rintro _ _ _ ⟨⟩
        exact unsettled row stored
      · rintro _ _ _ _ ⟨⟩
  | @drop worker id now row held stored =>
      have busy : track.phase worker ≠ .idle := by rw [held]; exact Phase.noConfusion
      apply settledOnce.put
      · intro _ _ never
        exact absurd rfl never
      · rintro _ ⟨⟩
        exact .inl (settledOnce.unsettled worker busy row stored).1
      · intro active
        exact absurd active (settledOnce.left busy)
      · rintro _ _ _ ⟨⟩
      · rintro _ _ _ _ ⟨⟩
  | @answer worker ticket copy now answer held =>
      have busy : track.phase worker ≠ .idle := by rw [held]; exact Phase.noConfusion
      have unsettled := settledOnce.unsettled worker busy
      apply settledOnce.put
      · intro other different _
        by_contra active
        exact different (settledOnce.single other worker active busy)
      · intro row' same
        exact (unsettled row' same).exclusive
      · intro _
        exact unsettled
      · rintro _ _ _ ⟨⟩
      · rintro _ _ _ _ ⟨⟩
        exact settledOnce.loaded worker ticket copy now held
  | @settle worker ticket copy now answer row held stored =>
      have busy : track.phase worker ≠ .idle := by rw [held]; exact Phase.noConfusion
      obtain ⟨undelivered, kept⟩ := settledOnce.unsettled worker busy row stored
      obtain ⟨copyUndelivered, copyKept⟩ := settledOnce.answered worker ticket copy now answer held
      apply settledOnce.put
      · intro _ _ never
        exact absurd rfl never
      · rintro _ ⟨⟩
        simp only [WebhookDelivery.patch, undelivered, copyUndelivered, kept, copyKept,
          column_loaded, settled_deliveredAt, settled_abandonedAt]
        by_cases accepted : answer.error = none
        · exact .inr (if_neg fun both => both.1 accepted)
        · exact .inl (if_neg accepted)
      · intro active
        exact absurd active (settledOnce.left busy)
      · rintro _ _ _ ⟨⟩
      · rintro _ _ _ _ ⟨⟩
  | @crash worker =>
      have same : track.put worker .idle =
          { track.put worker .idle with row := track.row, trail := track.trail } := rfl
      rw [same]
      apply settledOnce.put
      · intro _ _ never
        exact absurd rfl never
      · exact settledOnce.exclusive
      · rintro ⟨other, active⟩
        have different : other ≠ worker := by
          rintro rfl
          simp [Track.put] at active
        exact settledOnce.unsettled other (by simpa [Track.put, different] using active)
      · rintro _ _ _ ⟨⟩
      · rintro _ _ _ _ ⟨⟩
  | select | release =>
      exact ⟨settledOnce.exclusive, settledOnce.single, settledOnce.unsettled,
        settledOnce.loaded, settledOnce.answered⟩
  | @replay request copy now held =>
      refine ⟨?_, settledOnce.single, ?_, settledOnce.loaded, settledOnce.answered⟩
      · intro _ mapped
        obtain ⟨row, stored, rfl⟩ := Option.map_eq_some_iff.mp mapped
        exact (settledOnce.exclusive row stored).imp (copy.requeuedOver_undelivered now)
          (copy.requeuedOver_kept now)
      · intro worker busy _ mapped
        obtain ⟨row, stored, rfl⟩ := Option.map_eq_some_iff.mp mapped
        exact (settledOnce.unsettled worker busy row stored).imp
          (copy.requeuedOver_undelivered now) (copy.requeuedOver_kept now)

end SettledOnce

/-- No attempt is under way, and no delivery has both terminal columns set. -/
structure State.Exclusive (state : State ι) : Prop where
  sound : state.Sound
  rows : ∀ delivery ∈ state.db.deliveries,
    delivery.deliveredAt = none ∨ delivery.abandonedAt = none
  still : ∀ worker, (state.workers worker).delivery? = none

theorem settledOnce_of_reaches {start state : State ι} (exclusive : start.Exclusive)
    (reaches : Reaches NoOverlap start state) (id : DeliveryId) :
    SettledOnce (state.track id) := by
  have still : ∀ worker, (start.track id).phase worker = .idle := by
    intro worker
    exact State.track_idle (by simp [exclusive.still worker])
  have first : SettledOnce (start.track id) := by
    refine ⟨?_, ?_, ?_, ?_, ?_⟩
    · intro row stored
      exact exclusive.rows row (Database.delivery?_id stored).2
    · intro worker _ busy
      exact absurd (still worker) busy
    · intro worker busy
      exact absurd (still worker) busy
    · intro worker ticket copy now held
      cases (still worker).symm.trans held
    · intro worker ticket copy now answer held
      cases (still worker).symm.trans held
  refine reaches.track exclusive.sound first ?_
  intro state after action move sound met origin step settledOnce
  apply settledOnce.step step
  rintro worker rfl other different
  cases (show action = .lease worker from origin)
  have leased : (after.workers worker).delivery? = some id := by
    generalize reached : after.track id = track at step
    have phase : (after.workers worker).on id = track.phase worker :=
      congrFun (congrArg Track.phase reached) worker
    cases step with
    | lease =>
        unfold Phase.on at phase
        split at phase
        next held => exact held
        next => simp [Track.put] at phase
  exact State.track_idle (met worker rfl id leased other different)

/-- Delivery states are exclusive in every run in which no lease is granted
while another attempt of the delivery is under way: no delivery has both
terminal columns set, so each delivery of a subscription is listed under exactly
one of the filters. -/
theorem delivery_states_exclusive {start state : State ι} (exclusive : start.Exclusive)
    (reaches : Reaches NoOverlap start state) :
    (∀ delivery ∈ state.db.deliveries,
      ¬ (delivery.deliveredAt ≠ none ∧ delivery.abandonedAt ≠ none)) ∧
    ∀ subscriptionId, ∀ delivery ∈ filteredDeliveries state.db subscriptionId none,
      ∃! filter, delivery ∈ filteredDeliveries state.db subscriptionId (some filter) := by
  have rows : ∀ delivery ∈ state.db.deliveries,
      delivery.deliveredAt = none ∨ delivery.abandonedAt = none := by
    intro delivery member
    have stored := Database.delivery?_of_mem (reaches.sound exclusive.sound).keyed member
    exact (settledOnce_of_reaches exclusive reaches delivery.id).exclusive delivery stored
  constructor
  · rintro delivery member ⟨delivered, given_up⟩
    exact (rows delivery member).elim delivered given_up
  · intro subscriptionId delivery listed
    have member : delivery ∈ state.db.deliveries := List.mem_of_mem_filter listed
    have owned : delivery.subscriptionId = subscriptionId := by
      simpa using List.of_mem_filter listed
    have listedUnder : ∀ filter : DeliveryState,
        delivery ∈ filteredDeliveries state.db subscriptionId (some filter) ↔
          filter.selects delivery = true := by
      intro filter
      simp [filteredDeliveries, member, owned]
    simp only [listedUnder]
    cases delivered : delivery.deliveredAt with
    | some at_ =>
        have kept : delivery.abandonedAt = none := by simpa [delivered] using rows delivery member
        refine ⟨.delivered, by simp [DeliveryState.selects, delivered], ?_⟩
        intro filter selects
        cases filter <;> simp_all [DeliveryState.selects]
    | none =>
        cases given_up : delivery.abandonedAt with
        | some at_ =>
            refine ⟨.abandoned, by simp [DeliveryState.selects, given_up], ?_⟩
            intro filter selects
            cases filter <;> simp_all [DeliveryState.selects]
        | none =>
            refine ⟨.pending, by simp [DeliveryState.selects, delivered, given_up], ?_⟩
            intro filter selects
            cases filter <;> simp_all [DeliveryState.selects]

end Exclusive

/-- Any action at any time. -/
def Anyhow {ι : Type} (_state : State ι) (_action : Action ι) (_after : State ι) : Prop := True

instance {ι : Type} (state : State ι) (action : Action ι) (after : State ι) :
    Decidable (Anyhow state action after) := isTrue trivial

/-- A delivery on its last attempt that outlives its lease: the first worker's
request fails while the second worker's is accepted. -/
def overlappingActions : List (Action Bool) :=
  [.begin true sampleDelivery.id, .lease true, .load true, .tick (minutes 2),
    .begin false sampleDelivery.id, .lease false, .load false,
    .answer true (.status 503 "busy"), .record true,
    .answer false (.status 200 "ok"), .record false]

theorem delivered_and_abandoned :
    ∃ state, (sampleState 7).follow Anyhow overlappingActions = some state ∧
      ∃ delivery ∈ state.db.deliveries,
        delivery.deliveredAt ≠ none ∧ delivery.abandonedAt ≠ none := by
  have ran : ((sampleState 7).follow Anyhow overlappingActions).any (fun state =>
      state.db.deliveries.any fun delivery =>
        delivery.deliveredAt.isSome && delivery.abandonedAt.isSome) = true := by
    decide +kernel
  obtain ⟨state, followed, found⟩ := (Option.any_eq_true _ _).mp ran
  obtain ⟨delivery, member, both⟩ := List.any_eq_true.mp found
  simp only [Bool.and_eq_true, Option.isSome_iff_ne_none] at both
  exact ⟨state, followed, delivery, member, both⟩

theorem sampleState_exclusive (attempts : Nat) : (sampleState attempts).Exclusive where
  sound := sampleState_sound attempts
  rows := by
    intro delivery member
    rw [List.mem_singleton.mp member]
    exact .inl rfl
  still := fun _ => rfl

/-- The last attempt fails, the delivery is replayed and then accepted. -/
def replayedActions : List (Action Bool) :=
  [.begin true sampleDelivery.id, .lease true, .load true, .answer true (.status 503 "busy"),
    .record true, .select true (.delivery sampleApplication sampleSubscription.id sampleDelivery.id),
    .requeue true 0, .begin false sampleDelivery.id, .lease false, .load false,
    .answer false (.status 200 "ok"), .record false]

theorem delivery_states_exclusive_replayed :
    ∃ state, (sampleState 7).follow NoOverlap replayedActions = some state ∧
      ∃ delivery ∈ state.db.deliveries,
        delivery.deliveredAt ≠ none ∧ delivery.abandonedAt = none := by
  have ran : ((sampleState 7).follow NoOverlap replayedActions).any (fun state =>
      state.db.deliveries.any fun delivery => delivery.deliveredAt.isSome) = true := by
    decide +kernel
  obtain ⟨state, followed, found⟩ := (Option.any_eq_true _ _).mp ran
  obtain ⟨delivery, member, delivered⟩ := List.any_eq_true.mp found
  rw [Option.isSome_iff_ne_none] at delivered
  have exclusive := delivery_states_exclusive (sampleState_exclusive 7)
    (Reaches.of_follow .start followed)
  refine ⟨state, followed, delivery, member, delivered, ?_⟩
  by_contra given_up
  exact exclusive.1 delivery member ⟨delivered, given_up⟩

/-! ## After a replay -/

/-- The answer to a request that began after the given place of the trail. -/
def Happening.answersSince (place : Nat) : Happening → Bool
  | .answered ticket _ _ => place < ticket
  | _ => false

def Happening.failsSince (place : Nat) (happening : Happening) : Bool :=
  happening.answersSince place && happening.isFailure

def answeredSince (place : Nat) (trail : List Happening) : Nat :=
  trail.countP (·.answersSince place)

def failedSince (place : Nat) (trail : List Happening) : Nat :=
  trail.countP (·.failsSince place)

/-- A request that began after the given place of the trail was accepted. -/
def AcceptedSince (place : Nat) (trail : List Happening) : Prop :=
  ∃ ticket start, .answered ticket start true ∈ trail ∧ place < ticket

theorem failedSince_le (place : Nat) (trail : List Happening) :
    failedSince place trail ≤ answeredSince place trail := by
  apply List.countP_mono_left
  intro happening _ fails
  simp only [Happening.failsSince, Bool.and_eq_true] at fails
  exact fails.1

theorem failedSince_concat (place : Nat) (trail : List Happening) (happening : Happening) :
    failedSince place (trail ++ [happening]) =
      failedSince place trail + if happening.failsSince place then 1 else 0 := by
  simp [failedSince, List.countP_append, List.countP_singleton]

theorem answeredSince_concat (place : Nat) (trail : List Happening) (happening : Happening) :
    answeredSince place (trail ++ [happening]) =
      answeredSince place trail + if happening.answersSince place then 1 else 0 := by
  simp [answeredSince, List.countP_append, List.countP_singleton]

theorem failedSince_mono (place : Nat) (trail : List Happening) (happening : Happening) :
    failedSince place trail ≤ failedSince place (trail ++ [happening]) := by
  rw [failedSince_concat]
  exact Nat.le_add_right _ _

theorem answeredSince_mono (place : Nat) (trail : List Happening) (happening : Happening) :
    answeredSince place trail ≤ answeredSince place (trail ++ [happening]) := by
  rw [answeredSince_concat]
  exact Nat.le_add_right _ _

theorem AcceptedSince.concat {place : Nat} {trail : List Happening}
    (accepted : AcceptedSince place trail) (happening : Happening) :
    AcceptedSince place (trail ++ [happening]) := by
  obtain ⟨ticket, start, member, later⟩ := accepted
  exact ⟨ticket, start, by simp [member], later⟩

section Replays

variable {ι : Type}

/-- What the row has to show for, since the replay at the given place. -/
structure RowSince (row : WebhookDelivery) (place : Nat) (since : List Happening) : Prop where
  pending : row.deliveredAt = none → row.attempts ≤ failedSince place since
  counted : row.attempts ≤ answeredSince place since
  delivered : row.deliveredAt ≠ none → AcceptedSince place since
  abandoned : row.abandonedAt ≠ none →
    .dropped ∈ since ∨ maxAttempts ≤ failedSince place since

/-- What an attempt that has loaded the row carries with it. -/
def Phase.Since (place : Nat) (since : List Happening) : Phase → Prop
  | .sending ticket copy _ =>
      place < ticket ∧ copy.deliveredAt = none ∧ copy.attempts ≤ failedSince place since
  | .answered ticket copy _ answer =>
      place < ticket ∧ copy.deliveredAt = none ∧
        copy.attempts + 1 ≤ answeredSince place since ∧
        (answer.error ≠ none → copy.attempts + 1 ≤ failedSince place since) ∧
        (answer.error = none → AcceptedSince place since)
  | _ => True

/-- A delivery since its replay at the given place. -/
structure Since (row : Option WebhookDelivery) (phase : ι → Phase) (place : Nat)
    (since : List Happening) : Prop where
  row : ∀ stored, row = some stored → RowSince stored place since
  phase : ∀ worker, (phase worker).Since place since
  exhausted : ∀ before ticket after, since = before ++ .settled ticket .abandoned :: after →
    maxAttempts ≤ failedSince place before

theorem RowSince.concat {row : WebhookDelivery} {place : Nat} {since : List Happening}
    (earlier : RowSince row place since) (happening : Happening) :
    RowSince row place (since ++ [happening]) where
  pending undelivered := (earlier.pending undelivered).trans (failedSince_mono _ _ _)
  counted := earlier.counted.trans (answeredSince_mono _ _ _)
  delivered settled := (earlier.delivered settled).concat happening
  abandoned settled := by
    rcases earlier.abandoned settled with member | many
    · exact .inl (by simp [member])
    · exact .inr (many.trans (failedSince_mono _ _ _))

theorem Phase.Since.concat {phase : Phase} {place : Nat} {since : List Happening}
    (earlier : phase.Since place since) (happening : Happening) :
    phase.Since place (since ++ [happening]) := by
  cases phase with
  | sending ticket copy now =>
      obtain ⟨later, undelivered, attempts⟩ := earlier
      exact ⟨later, undelivered, attempts.trans (failedSince_mono _ _ _)⟩
  | answered ticket copy now answer =>
      obtain ⟨later, undelivered, answered, failed, accepted⟩ := earlier
      refine ⟨later, undelivered, answered.trans (answeredSince_mono _ _ _), ?_, ?_⟩
      · intro refused
        exact (failed refused).trans (failedSince_mono _ _ _)
      · intro granted
        exact (accepted granted).concat happening
  | _ => trivial

namespace Since

variable {row : Option WebhookDelivery} {phase : ι → Phase} {place : Nat}
  {since : List Happening}

theorem concat (earlier : Since row phase place since) (happening : Happening)
    (exhausted : ∀ ticket, happening = .settled ticket .abandoned →
      maxAttempts ≤ failedSince place since) :
    Since row phase place (since ++ [happening]) where
  row stored same := (earlier.row stored same).concat happening
  phase worker := (earlier.phase worker).concat happening
  exhausted := by
    intro before ticket after same
    rcases split_concat.mp same with ⟨rest, rfl, inside⟩ | ⟨rfl, last, rfl⟩
    · exact earlier.exhausted before ticket rest inside
    · exact exhausted ticket last.symm

theorem withRow (earlier : Since row phase place since) (row' : Option WebhookDelivery)
    (changed : ∀ stored, row' = some stored → RowSince stored place since) :
    Since row' phase place since :=
  ⟨changed, earlier.phase, earlier.exhausted⟩

theorem put [DecidableEq ι] (earlier : Since row phase place since) (worker : ι) (next : Phase)
    (changed : next.Since place since) :
    Since row (Function.update phase worker next) place since where
  row := earlier.row
  phase other := by
    by_cases same : other = worker
    · subst same
      simpa using changed
    · simpa [same] using earlier.phase other
  exhausted := earlier.exhausted

end Since

/-- Every replay the delivery has seen. -/
def SinceReplays (track : Track ι) : Prop :=
  ∀ before since, track.trail = before ++ .replayed :: since →
    Since track.row track.phase before.length since

/-- The worker holds an object of some delivery. -/
def Phase.isLoaded : Phase → Bool
  | .sending _ _ _ | .answered _ _ _ _ => true
  | _ => false

theorem Phase.since_of_unloaded {phase : Phase} (unloaded : phase.isLoaded = false) (place : Nat)
    (since : List Happening) : phase.Since place since := by
  cases phase with
  | sending => cases unloaded
  | answered => cases unloaded
  | _ => trivial

/-- What a replay resets in the row is as the replay has loaded it, or reset. -/
structure Loaded (copy row : WebhookDelivery) : Prop where
  attempts : row.attempts = copy.attempts ∨ row.attempts = 0
  deliveredAt : row.deliveredAt = copy.deliveredAt ∨ row.deliveredAt = none
  abandonedAt : row.abandonedAt = copy.abandonedAt ∨ row.abandonedAt = none

theorem Loaded.refl (row : WebhookDelivery) : Loaded row row := ⟨.inl rfl, .inl rfl, .inl rfl⟩

/-- Another replay resets columns only. -/
theorem Loaded.requeuedOver {copy row : WebhookDelivery} (loaded : Loaded copy row)
    (other : WebhookDelivery) (now : Time) : Loaded copy (other.requeuedOver now row) where
  attempts := by
    rcases other.requeuedOver_attempts now row with same | reset
    · rw [same]
      exact loaded.attempts
    · exact .inr reset
  deliveredAt := by
    rcases other.requeuedOver_deliveredAt now row with same | reset
    · rw [same]
      exact loaded.deliveredAt
    · exact .inr reset
  abandonedAt := by
    rcases other.requeuedOver_abandonedAt now row with same | reset
    · rw [same]
      exact loaded.abandonedAt
    · exact .inr reset

theorem column_of_loaded {α : Type} [DecidableEq α] {copy stored reset : α}
    (loaded : stored = copy ∨ stored = reset) : column copy reset stored = reset := by
  unfold column
  split_ifs with same
  · rcases loaded with rfl | rfl
    · exact same.symm
    · rfl
  · rfl

theorem rowSince_requeued {copy row : WebhookDelivery} (loaded : Loaded copy row) (now : Time)
    (place : Nat) (since : List Happening) : RowSince (copy.requeuedOver now row) place since := by
  have attempts : (copy.requeuedOver now row).attempts = 0 := column_of_loaded loaded.attempts
  have deliveredAt : (copy.requeuedOver now row).deliveredAt = none :=
    column_of_loaded loaded.deliveredAt
  have abandonedAt : (copy.requeuedOver now row).abandonedAt = none :=
    column_of_loaded loaded.abandonedAt
  refine ⟨fun _ => ?_, ?_, fun settled => absurd deliveredAt settled,
    fun settled => absurd abandonedAt settled⟩
  · rw [attempts]
    exact Nat.zero_le _
  · rw [attempts]
    exact Nat.zero_le _

/-- The final update of an attempt whose request began after the replay. -/
theorem RowSince.settled {row copy : WebhookDelivery} {ticket place : Nat} {now : Time}
    {answer : Answer} {since : List Happening} (earlier : RowSince row place since)
    (carried : (Phase.answered ticket copy now answer).Since place since) :
    RowSince (copy.patch (Webhooks.settled copy answer now).1 row) place since := by
  obtain ⟨-, undelivered, answered, failed, accepted⟩ := carried
  have attempts : (copy.patch (Webhooks.settled copy answer now).1 row).attempts =
      copy.attempts + 1 := by
    simp [WebhookDelivery.patch, column]
  have deliveredAt : (copy.patch (Webhooks.settled copy answer now).1 row).deliveredAt =
      if answer.error = none then some now else row.deliveredAt := by
    simp only [WebhookDelivery.patch, settled_deliveredAt, undelivered, column]
    split_ifs <;> simp_all
  refine ⟨?_, attempts ▸ answered, ?_, ?_⟩
  · intro pending
    rw [deliveredAt] at pending
    split_ifs at pending with granted
    rw [attempts]
    exact failed granted
  · intro settled
    rw [deliveredAt] at settled
    split_ifs at settled with granted
    · exact accepted granted
    · exact earlier.delivered settled
  · intro settled
    by_cases last : answer.error ≠ none ∧ maxAttempts ≤ copy.attempts + 1
    · exact .inr (last.2.trans (failed last.1))
    · simp only [WebhookDelivery.patch, settled_abandonedAt, if_neg last, column, if_true]
        at settled
      exact earlier.abandoned settled

variable [DecidableEq ι]

/-- A replay and an attempt do not both have an object of the delivery, and no attempt has
written to the row since a replay loaded it. -/
structure Apart (track : Track ι) : Prop where
  unloaded : ∀ worker request copy, track.copies request = some copy →
    (track.phase worker).isLoaded = false
  loaded : ∀ request copy row, track.copies request = some copy → track.row = some row →
    Loaded copy row

omit [DecidableEq ι] in
/-- An attempt that has loaded the row keeps replays from doing so. -/
theorem Apart.unselected {track : Track ι} (apart : Apart track) (worker : ι)
    (busy : (track.phase worker).isLoaded = true) (request : ι) : track.copies request = none := by
  cases held : track.copies request with
  | none => rfl
  | some copy =>
      have idle := apart.unloaded worker request copy held
      rw [busy] at idle
      cases idle

omit [DecidableEq ι] in
theorem Apart.of_unselected {track : Track ι} (unselected : ∀ request, track.copies request = none) :
    Apart track where
  unloaded worker request copy held := by
    rw [unselected] at held
    cases held
  loaded request copy row held := by
    rw [unselected] at held
    cases held

theorem Apart.put {track : Track ι} (apart : Apart track) (worker : ι) {phase : Phase}
    (unloaded : phase.isLoaded = false) {row : Option WebhookDelivery}
    (loaded : ∀ request copy stored, track.copies request = some copy → row = some stored →
      Loaded copy stored) (trail : List Happening) :
    Apart { track.put worker phase with row := row, trail := trail } where
  unloaded other request copy held := by
    change (Function.update track.phase worker phase other).isLoaded = false
    by_cases same : other = worker
    · rw [same, Function.update_self]
      exact unloaded
    · rw [Function.update_of_ne same]
      exact apart.unloaded other request copy held
  loaded := loaded

theorem Apart.hold {track : Track ι} {request : ι} {copy? : Option WebhookDelivery}
    {row : Option WebhookDelivery} {trail : List Happening} (apart : Apart track)
    (unloaded : ∀ copy, copy? = some copy → ∀ worker, (track.phase worker).isLoaded = false)
    (own : ∀ copy stored, copy? = some copy → row = some stored → Loaded copy stored)
    (others : ∀ other copy stored, track.copies other = some copy → row = some stored →
      Loaded copy stored) :
    Apart { track.hold request copy? with row := row, trail := trail } where
  unloaded worker other copy held := by
    change Function.update track.copies request copy? other = some copy at held
    by_cases same : other = request
    · rw [same, Function.update_self] at held
      exact unloaded copy held worker
    · rw [Function.update_of_ne same] at held
      exact apart.unloaded worker other copy held
  loaded other copy stored held := by
    change Function.update track.copies request copy? other = some copy at held
    by_cases same : other = request
    · rw [same, Function.update_self] at held
      exact own copy stored held
    · rw [Function.update_of_ne same] at held
      exact others other copy stored held

/-- Replays and attempts stay apart if neither loads the row while the other has an object. -/
theorem Apart.step {track after : Track ι} {move : Move ι} (apart : Apart track)
    (step : track.Step move after)
    (loads : ∀ worker, move = .load worker ∨ move = .drop worker →
      ∀ request, track.copies request = none)
    (selects : ∀ request, move = .select request →
      ∀ worker, (track.phase worker).isLoaded = false) : Apart after := by
  cases step with
  | wait => exact ⟨apart.unloaded, apart.loaded⟩
  | create absent unheard still unselected => exact .of_unselected unselected
  | remove => exact ⟨apart.unloaded, fun _ _ _ _ stored => by cases stored⟩
  | @lease worker id now row stored =>
      refine apart.put worker rfl ?_ _
      rintro request copy _ held ⟨⟩
      have loaded := apart.loaded request copy row held stored
      exact ⟨loaded.attempts, loaded.deliveredAt, loaded.abandonedAt⟩
  | @load worker => exact .of_unselected (loads worker (.inl rfl))
  | @drop worker => exact .of_unselected (loads worker (.inr rfl))
  | @answer worker _ _ _ _ held =>
      exact .of_unselected (apart.unselected worker (by rw [held]; rfl))
  | @settle worker _ _ _ _ _ held =>
      exact .of_unselected (apart.unselected worker (by rw [held]; rfl))
  | @crash worker => exact apart.put worker rfl apart.loaded _
  | @select request row stored =>
      refine apart.hold (fun _ _ => selects request rfl) ?_ apart.loaded
      rintro _ _ ⟨⟩ same
      cases stored.symm.trans same
      exact .refl _
  | @replay request copy now held =>
      refine apart.hold (fun _ none_ => by cases none_) (fun _ _ none_ => by cases none_) ?_
      intro other copy' _ held' mapped
      obtain ⟨row, stored, rfl⟩ := Option.map_eq_some_iff.mp mapped
      exact (apart.loaded other copy' row held' stored).requeuedOver copy now
  | @release request =>
      exact apart.hold (fun _ none_ => by cases none_) (fun _ _ none_ => by cases none_)
        apart.loaded

theorem SinceReplays.step {track after : Track ι} {move : Move ι} (holds : SinceReplays track)
    (apart : Apart track) (step : track.Step move after)
    (pending : ∀ worker, move = .load worker → ∀ row, track.row = some row →
      row.deliveredAt = none) : SinceReplays after := by
  cases step with
  | wait => exact holds
  | select | release => exact holds
  | create absent unheard =>
      intro before since same
      simp [unheard] at same
  | remove =>
      intro before since same
      apply (holds before since same).withRow
      rintro _ ⟨⟩
  | @lease worker id now row stored =>
      intro before since same
      have earlier := holds before since same
      have kept := earlier.row row stored
      apply (earlier.put worker (.leased id now) trivial).withRow
      rintro _ ⟨⟩
      exact ⟨kept.pending, kept.counted, kept.delivered, kept.abandoned⟩
  | @load worker id now row held stored =>
      intro before since same
      rcases split_concat.mp same with ⟨rest, rfl, inside⟩ | ⟨rfl, last, rfl⟩
      · have earlier := holds before rest inside
        have undelivered := pending worker rfl row stored
        have carried : (Phase.sending track.trail.length row now).Since before.length rest := by
          refine ⟨?_, undelivered, (earlier.row row stored).pending undelivered⟩
          simp [inside]
        apply (earlier.put worker _ carried).concat
        intro ticket never
        cases never
      · cases last
  | @drop worker id now row held stored =>
      intro before since same
      rcases split_concat.mp same with ⟨rest, rfl, inside⟩ | ⟨rfl, last, rfl⟩
      · have earlier := holds before rest inside
        have kept := (earlier.row row stored).concat .dropped
        have left := (earlier.put worker .idle trivial).concat .dropped
          (fun ticket never => by cases never)
        apply left.withRow
        rintro _ ⟨⟩
        exact ⟨kept.pending, kept.counted, kept.delivered, fun _ => .inl (by simp)⟩
      · cases last
  | @answer worker ticket copy now answer held =>
      intro before since same
      rcases split_concat.mp same with ⟨rest, rfl, inside⟩ | ⟨rfl, last, rfl⟩
      · have earlier := holds before rest inside
        have carried := earlier.phase worker
        rw [held] at carried
        obtain ⟨later, undelivered, attempts⟩ := carried
        refine (earlier.concat _ ?_).put worker _ ?_
        · intro ticket never
          cases never
        · refine ⟨later, undelivered, ?_, ?_, ?_⟩
          · have answered := attempts.trans (failedSince_le before.length rest)
            simp only [answeredSince_concat, Happening.answersSince, later, decide_true, if_true]
            omega
          · intro refused
            have failure : answer.error.isNone = false := by
              simpa [Option.isSome_iff_ne_none] using refused
            simp only [failedSince_concat, Happening.failsSince, Happening.answersSince, later,
              decide_true, Happening.isFailure, failure, Bool.and_self, if_true]
            omega
          · intro granted
            exact ⟨ticket, now, by simp [granted], later⟩
      · cases last
  | @settle worker ticket copy now answer row held stored =>
      intro before since same
      rcases split_concat.mp same with ⟨rest, rfl, inside⟩ | ⟨rfl, last, rfl⟩
      · have earlier := holds before rest inside
        have carried := earlier.phase worker
        rw [held] at carried
        have written := (earlier.row row stored).settled carried
        have changed := (earlier.put worker .idle trivial).withRow
          (some (copy.patch (Webhooks.settled copy answer now).1 row))
          (fun _ same => by cases same; exact written)
        apply changed.concat
        intro ticket' settled
        obtain ⟨-, -, -, failed, -⟩ := carried
        simp only [Happening.settled.injEq, settled_outcome] at settled
        obtain ⟨-, outcome⟩ := settled
        split_ifs at outcome with granted last
        exact last.trans (failed granted)
      · cases last
  | crash =>
      intro before since same
      exact (holds before since same).put _ .idle trivial
  | @replay request copy now held =>
      have requeued (place : Nat) (since : List Happening) (stored : WebhookDelivery)
          (mapped : track.row.map (copy.requeuedOver now) = some stored) :
          RowSince stored place since := by
        obtain ⟨row, stored, rfl⟩ := Option.map_eq_some_iff.mp mapped
        exact rowSince_requeued (apart.loaded request copy row held stored) now place since
      intro before since same
      rcases split_concat.mp same with ⟨rest, rfl, inside⟩ | ⟨rfl, last, rfl⟩
      · have earlier := holds before rest inside
        refine (earlier.concat _ ?_).withRow _ (requeued _ _)
        intro ticket never
        cases never
      · refine ⟨requeued _ _, fun worker => ?_, by simp⟩
        exact Phase.since_of_unloaded (apart.unloaded worker request copy held) _ _

/-- The worker that loads the row it leased. -/
def Action.loading : Action ι → Option ι
  | .load worker => some worker
  | _ => none

/-- No replay loads a delivery while an attempt holds an object of it, and no attempt loads
one that a replay has loaded and not yet committed or that another attempt has already
marked delivered. -/
def ReplaysApart (state : State ι) (action : Action ι) (_after : State ι) : Prop :=
  (∀ id ∈ state.selected action, ∀ worker, (state.workers worker).loads id = false) ∧
    ∀ worker ∈ action.loading, ∀ id ∈ (state.workers worker).delivery?,
      (∀ request, (state.replays request).copy? id = none) ∧
        ∀ row ∈ state.db.delivery? id, row.deliveredAt = none

instance [Fintype ι] (state : State ι) (action : Action ι) (after : State ι) :
    Decidable (ReplaysApart state action after) :=
  inferInstanceAs (Decidable (_ ∧ _))

/-- No replay has been made, and none is under way. -/
structure State.Unreplayed (state : State ι) : Prop where
  trail : ∀ id, .replayed ∉ state.trail id
  idle : ∀ request, state.replays request = .idle

/-- What runs keep of the replays of a delivery. -/
structure ReplaysKept (track : Track ι) : Prop where
  since : SinceReplays track
  apart : Apart track

omit [DecidableEq ι] in
/-- An object that shows in the track of a delivery is one of it. -/
theorem isLoaded_track {state : State ι} {worker : ι} {id : DeliveryId}
    (unloaded : (state.workers worker).loads id = false) :
    ((state.track id).phase worker).isLoaded = false := by
  change ((state.workers worker).on id).isLoaded = false
  unfold Phase.on
  split
  next held => cases phase : state.workers worker <;> simp_all [Phase.loads, Phase.isLoaded,
      Phase.delivery?]
  next => rfl

/-- A worker that loads the row of a delivery has leased it. -/
theorem leased_of_load {state after : State ι} {worker : ι} {id : DeliveryId} {move : Move ι}
    (step : (state.track id).Step move (after.track id))
    (loads : move = .load worker ∨ move = .drop worker) :
    (state.workers worker).delivery? = some id := by
  have held : ∃ id' now, (state.track id).phase worker = .leased id' now := by
    generalize after.track id = reached at step
    rcases loads with rfl | rfl
    · cases step with
      | load held => exact ⟨_, _, held⟩
    · cases step with
      | drop held => exact ⟨_, _, held⟩
  by_contra free
  obtain ⟨id', now, held⟩ := held
  rw [State.track_idle free] at held
  cases held

theorem replaysKept_of_reaches {start state : State ι} (sound : start.Sound)
    (unreplayed : start.Unreplayed) (reaches : Reaches ReplaysApart start state)
    (id : DeliveryId) : ReplaysKept (state.track id) := by
  have first : ReplaysKept (start.track id) := by
    refine ⟨fun before since same => ?_, .of_unselected fun request => ?_⟩
    · have trail : start.trail id = before ++ .replayed :: since := same
      exact absurd (by simp [trail]) (unreplayed.trail id)
    · change (start.replays request).copy? id = none
      rw [unreplayed.idle]
      rfl
  refine reaches.track sound first ?_
  rintro state after action move sound met origin step ⟨holds, apart⟩
  have loading (worker : ι) (loads : move = .load worker ∨ move = .drop worker) :
      worker ∈ action.loading := by
    have loads' : action = .load worker := by
      rcases loads with rfl | rfl <;> exact origin
    rw [loads']
    rfl
  refine ⟨holds.step apart step ?_, apart.step step ?_ ?_⟩
  · intro worker loads row stored
    have leased := leased_of_load step (.inl loads)
    exact (met.2 worker (loading worker (.inl loads)) id leased).2 row stored
  · intro worker loads request
    exact (met.2 worker (loading worker loads) id (leased_of_load step loads)).1 request
  · rintro request rfl worker
    exact isLoaded_track (met.1 id origin worker)

/-- No replay is lost in a run in which no replay and no attempt have an object of the delivery at
the same time, from the load to the end, and no attempt loads a delivered row: after the replay the
delivery is abandoned for failures only after `MAX_ATTEMPTS` failed requests that began after it, it
is delivered only by the 2xx answer to such a request, and its counter counts no others. -/
theorem replays_never_lost {start state : State ι} (sound : start.Sound)
    (unreplayed : start.Unreplayed) (reaches : Reaches ReplaysApart start state) (id : DeliveryId)
    (before since : List Happening) (replayed : state.trail id = before ++ .replayed :: since) :
    (∀ earlier ticket later, since = earlier ++ .settled ticket .abandoned :: later →
      maxAttempts ≤ failedSince before.length earlier) ∧
    ∀ row, state.db.delivery? id = some row →
      (row.abandonedAt ≠ none →
        .dropped ∈ since ∨ maxAttempts ≤ failedSince before.length since) ∧
      (row.deliveredAt ≠ none → AcceptedSince before.length since) ∧
      row.attempts ≤ answeredSince before.length since := by
  have held := (replaysKept_of_reaches sound unreplayed reaches id).since before since replayed
  refine ⟨held.exhausted, ?_⟩
  intro row stored
  have facts := held.row row stored
  exact ⟨facts.abandoned, facts.delivered, facts.counted⟩

end Replays

/-- A replay that is made while the last attempt is in flight. -/
def lostReplayActions : List (Action Bool) :=
  [.begin true sampleDelivery.id, .lease true, .load true, .tick (seconds 1),
    .select false (.delivery sampleApplication sampleSubscription.id sampleDelivery.id),
    .requeue false (seconds 1), .answer true (.status 503 "busy"), .record true]

/-- The replayed delivery is abandoned although no request began after the
replay, with one attempt more on its counter than it had before. -/
theorem replay_lost :
    ∃ state, (sampleState 7).follow Anyhow lostReplayActions = some state ∧
      ∃ before since row, state.trail sampleDelivery.id = before ++ .replayed :: since ∧
        state.db.delivery? sampleDelivery.id = some row ∧
        .settled 0 .abandoned ∈ since ∧ answeredSince before.length since = 0 ∧
        row.abandonedAt ≠ none ∧ row.attempts = 8 := by
  have ran : ((sampleState 7).follow Anyhow lostReplayActions).any (fun state =>
      decide (state.trail sampleDelivery.id = [.sent 0 0, .replayed, .answered 0 0 false,
        .settled 0 .abandoned]) &&
      (state.db.delivery? sampleDelivery.id).any fun row =>
        row.abandonedAt.isSome && decide (row.attempts = 8)) = true := by
    decide +kernel
  obtain ⟨state, followed, found⟩ := (Option.any_eq_true _ _).mp ran
  simp only [Bool.and_eq_true, decide_eq_true_eq] at found
  obtain ⟨trail, found⟩ := found
  obtain ⟨row, stored, found⟩ := (Option.any_eq_true _ _).mp found
  simp only [Bool.and_eq_true, decide_eq_true_eq, Option.isSome_iff_ne_none] at found
  refine ⟨state, followed, [.sent 0 0], [.answered 0 0 false, .settled 0 .abandoned], row, trail,
    stored, by simp, by decide, found⟩

/-- Both replay and attempts, one after the other: the replayed delivery is
accepted. -/
theorem replays_never_lost_replayed :
    ∃ state, (sampleState 7).follow ReplaysApart replayedActions = some state ∧
      ∃ before since row, state.trail sampleDelivery.id = before ++ .replayed :: since ∧
        state.db.delivery? sampleDelivery.id = some row ∧ row.deliveredAt ≠ none ∧
        AcceptedSince before.length since := by
  have ran : ((sampleState 7).follow ReplaysApart replayedActions).any (fun state =>
      decide (state.trail sampleDelivery.id = [.sent 0 0, .answered 0 0 false,
        .settled 0 .abandoned] ++ .replayed ::
        [.sent 0 0, .answered 4 0 true, .settled 4 .delivered]) &&
      (state.db.delivery? sampleDelivery.id).any fun row => row.deliveredAt.isSome) = true := by
    decide +kernel
  obtain ⟨state, followed, found⟩ := (Option.any_eq_true _ _).mp ran
  simp only [Bool.and_eq_true, decide_eq_true_eq] at found
  obtain ⟨trail, found⟩ := found
  obtain ⟨row, stored, found⟩ := (Option.any_eq_true _ _).mp found
  rw [Option.isSome_iff_ne_none] at found
  have kept := replays_never_lost (sampleState_sound 7)
    ⟨fun _ => List.not_mem_nil, fun _ => rfl⟩ (Reaches.of_follow .start followed) sampleDelivery.id _ _ trail
  exact ⟨state, followed, _, _, row, trail, stored, found, (kept.2 row stored).2.1 found⟩

end CustomDomain.Webhooks
