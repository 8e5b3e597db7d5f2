import CustomDomain.ApplicationDeletion
import CustomDomain.WebhookAttempts

/-!
# The cap on webhook subscriptions

`create_subscription` counts the active subscriptions of an application with one
statement and inserts the new one with another, and takes no lock.  The cap is
kept when no creation counts while another one is between its count and its end;
two that count side by side exceed it.
-/

namespace CustomDomain

open Transaction Relation

/-- The active subscriptions of an application. -/
def Database.activeSubscriptions (db : Database) (applicationId : Uuid) :
    List WebhookSubscription :=
  db.subscriptions.filter fun subscription =>
    decide (subscription.applicationId = applicationId) && subscription.isActive

/-- A request that creates or revokes a subscription. -/
inductive CapRequest where
  | create (validateUrl : String → Except String String) (url : String) (events : List String)
      (id : Uuid) (secret : String) (now : Time)
  | revoke (subscriptionId : Uuid) (now : Time)

def CapRequest.creates : CapRequest → Bool
  | .create .. => true
  | .revoke .. => false

def CapRequest.program (application : Application) : CapRequest → Sql Unit
  | .create validateUrl url events id secret now => do
      let _ ← createSubscription validateUrl application url events id secret now
      pure ()
  | .revoke subscriptionId now => do
      let _ ← revokeSubscription application subscriptionId now
      pure ()

/-! ## Each request on its own -/

/-- Others may take active subscriptions away, not add any. -/
def capRely (applicationId : Uuid) : Rely store where
  Allows _ before after :=
    (after.activeSubscriptions applicationId).length ≤
      (before.activeSubscriptions applicationId).length
  refl _ _ := le_rfl
  trans first second := second.trans first
  mono allows := allows

/-- A creation that counted: there is room for one more, and it adds no more than
that. -/
structure Creating (applicationId : Uuid) (moment : Moment store) : Prop where
  room : (moment.committed.activeSubscriptions applicationId).length < maxSubscriptions
  adds : ∀ db, ((moment.pending db).activeSubscriptions applicationId).length ≤
    (db.activeSubscriptions applicationId).length + 1

theorem Creating.later {applicationId : Uuid} {moment : Moment store}
    (creating : Creating applicationId moment) {db : Database}
    (fewer : (capRely applicationId).Allows moment.locks moment.committed db) :
    Creating applicationId (moment.later db) :=
  ⟨lt_of_le_of_lt fewer creating.room, creating.adds⟩

theorem Creating.within {applicationId : Uuid} {moment : Moment store}
    (creating : Creating applicationId moment) :
    (moment.view.activeSubscriptions applicationId).length ≤ maxSubscriptions :=
  (creating.adds moment.committed).trans creating.room

/-- The count that `create_subscription` takes. -/
theorem counted_length (db : Database) (application : Application) :
    (((db.subscriptions.filter fun subscription =>
      subscription.applicationId = application.id).insertionSort
        WebhookSubscription.before).filter (·.isActive)).length =
      (db.activeSubscriptions application.id).length := by
  rw [((List.perm_insertionSort _ _).filter _).length_eq, List.filter_filter]
  unfold Database.activeSubscriptions
  congr 2
  funext subscription
  exact Bool.and_comm _ _

theorem activeSubscriptions_append (db : Database) (applicationId : Uuid)
    (subscription : WebhookSubscription) :
    (({ db with subscriptions := db.subscriptions ++ [subscription] } :
      Database).activeSubscriptions applicationId).length ≤
      (db.activeSubscriptions applicationId).length + 1 := by
  unfold Database.activeSubscriptions
  rw [List.filter_append, List.length_append]
  exact Nat.add_le_add_left (List.length_filter_le _ _) _

section Requests

variable (application : Application)

/-- The insert, once the count was below the cap. -/
theorem insertSubscription_safe {locks : List Row} {committed : Database}
    (room : (committed.activeSubscriptions application.id).length < maxSubscriptions)
    (subscription : WebhookSubscription) :
    Safe (capRely application.id) {} (fun _ => Creating application.id)
      (insertSubscription subscription) ⟨locks, id, committed⟩ := by
  unfold insertSubscription
  apply Safe.of_write
  intro now fewer
  have creating : Creating application.id (Moment.written (W := store) ⟨locks, id, now⟩
      (fun _ => [.subscription subscription.id])
      fun _ db => { db with subscriptions := db.subscriptions ++ [subscription] }) :=
    ⟨lt_of_le_of_lt fewer room, fun db =>
      activeSubscriptions_append db application.id subscription⟩
  split
  next => exact Safe.of_raise fun _ _ => trivial
  next =>
    split
    next => exact Safe.of_pure fun _ fewest => creating.later fewest
    next => exact Safe.of_raise fun _ _ => trivial

/-- A creation is safe from its count on. -/
theorem createSubscription_safe (validateUrl : String → Except String String) (url : String)
    (events : List String) (fresh : Uuid) (secret : String) (now : Time) (db : Database) :
    Safe (capRely application.id) {} (fun _ => Creating application.id)
      (createSubscription validateUrl application url events fresh secret now) ⟨[], id, db⟩ := by
  unfold createSubscription listSubscriptions
  refine Safe.requireThen (fun _ => ?_) fun _ _ _ => trivial
  refine Safe.readThen fun view _ => ⟨trivial, ?_⟩
  refine Safe.requireThen (fun room => ?_) fun _ _ _ => trivial
  rw [counted_length] at room
  cases validateUrl url with
  | error message => exact Safe.of_raise fun _ _ => trivial
  | ok url =>
      refine (insertSubscription_safe application room _).bind fun _ moment creating => ?_
      exact Safe.of_pure fun _ fewer => creating.later fewer

/-- The change takes active subscriptions away, if anything. -/
def OnlyRevokes (applicationId : Uuid) (change : Database → Database) : Prop :=
  ∀ db, ((change db).activeSubscriptions applicationId).length ≤
    (db.activeSubscriptions applicationId).length

theorem revokeSubscription_within (subscriptionId : Uuid) (now : Time) :
    (revokeSubscription application subscriptionId now).Within (OnlyRevokes application.id)
      fun _ => True := by
  unfold revokeSubscription
  refine Program.Within.bind ?_ fun subscription => ?_
  · unfold getSubscription
    refine Program.Within.bind (fun _ => trivial) fun found => ?_
    cases found with
    | none => exact trivial
    | some subscription => exact trivial
  · split
    next active =>
      refine Program.Within.bind ?_ fun _ => trivial
      unfold flushSubscription
      split
      next => exact trivial
      next =>
        refine fun view => ⟨fun db => ?_, ?_⟩
        · unfold Database.activeSubscriptions Database.updateSubscription
          dsimp only
          rw [List.filter_map, List.length_map]
          refine (List.monotone_filter_right _ fun row counted => ?_).length_le
          simp only [Function.comp_apply] at counted
          split at counted
          next =>
            simp [WebhookSubscription.patch, WebhookSubscription.isActive, column,
              Option.isNone_iff_eq_none.mp active] at counted
          next => exact counted
        · dsimp only
          split <;> exact trivial
    next => exact trivial

/-- Others may do anything. -/
def anyRely : Rely store where
  Allows _ _ _ := True
  refl _ _ := trivial
  trans _ _ := trivial
  mono _ := trivial

theorem CapRequest.safe_create {request : CapRequest} (creates : request.creates = true)
    (db : Database) :
    Safe (capRely application.id) {} (fun _ => Creating application.id)
      (request.program application) ⟨[], id, db⟩ := by
  cases request with
  | create validateUrl url events fresh secret now =>
      exact Safe.discard (createSubscription_safe application validateUrl url events fresh secret
        now db) fun _ _ creating fewer => creating.later fewer
  | revoke => cases creates

theorem CapRequest.safe_revoke {request : CapRequest} (revokes : request.creates = false)
    (db : Database) :
    Safe anyRely {} (fun _ moment => OnlyRevokes application.id moment.pending)
      (request.program application) ⟨[], id, db⟩ := by
  cases request with
  | create => cases revokes
  | revoke subscriptionId now =>
      have within : ((CapRequest.revoke subscriptionId now).program application).Within
          (OnlyRevokes application.id) fun _ => True :=
        (revokeSubscription_within application subscriptionId now).bind fun _ => trivial
      refine Program.Within.safe within
        (fun moment => OnlyRevokes application.id moment.pending) (fun _ _ holds _ => holds)
        (fun _ _ _ holds revokes db => ?_) (fun _ _ => trivial) (fun _ _ _ _ => trivial)
        (fun _ _ holds => holds) fun _ => le_rfl
      exact (revokes _).trans (holds db)

end Requests

/-! ## Requests that run together -/

section Runs

variable {ι : Type} (requests : ι → CapRequest)

/-- The creation has counted and is not done. -/
def Counting (state : State store ι Unit) (index : ι) : Prop :=
  (requests index).creates = true ∧ (state.session index).status = .running ∧
    0 < (state.session index).executed

/-- A creation counts only while no other one is between its count and its
end. -/
def CountsApart (state : State store ι Unit) (index : ι) : Prop :=
  (requests index).creates = true → (state.session index).executed = 0 →
    ∀ other, other ≠ index → ¬ Counting requests state other

instance (state : State store ι Unit) (index : ι) : Decidable (Counting requests state index) :=
  inferInstanceAs (Decidable (_ ∧ _))

instance [Fintype ι] [DecidableEq ι] (state : State store ι Unit) (index : ι) :
    Decidable (CountsApart requests state index) :=
  inferInstanceAs (Decidable (_ → _ → ∀ _, _ → _))

/-- What holds throughout such a run. -/
structure Capped (application : Application) (state : State store ι Unit) : Prop where
  cap : (state.committed.activeSubscriptions application.id).length ≤ maxSubscriptions
  counted : ∀ index, Counting requests state index →
    State.SafeAt (capRely application.id) {} (fun _ => Creating application.id) state index
  revoking : ∀ index, (requests index).creates = false →
    State.SafeAt anyRely {} (fun _ moment => OnlyRevokes application.id moment.pending) state index
  alone : ∀ first second, first ≠ second → Counting requests state first →
    ¬ Counting requests state second

variable {requests} [DecidableEq ι] {application : Application} {state : State store ι Unit}

theorem Counting.of_other {moved index : ι} (other : index ≠ moved)
    (counting : Counting requests (state.advance moved) index) :
    Counting requests state index := by
  unfold Counting at *
  rwa [State.advance_session_of_ne state moved other] at counting

theorem Capped.revoke (capped : Capped requests application state) {moved : ι}
    (revokes : (requests moved).creates = false)
    (running : (state.session moved).status = .running) :
    Capped requests application (state.advance moved) := by
  have fewer : ((state.advance moved).committed.activeSubscriptions application.id).length ≤
      (state.committed.activeSubscriptions application.id).length := by
    cases commits : (state.session moved).commits with
    | false => rw [State.advance_committed_of_not_commits state moved commits]
    | true =>
        rw [State.advance_committed_of_commits state moved commits]
        obtain ⟨value, -, only⟩ := (capped.revoking moved revokes).at_commit running commits
        exact only state.committed
  have others : ∀ index, Counting requests (state.advance moved) index →
      index ≠ moved ∧ Counting requests state index := by
    intro index counting
    have other : index ≠ moved := by
      rintro rfl
      rw [counting.1] at revokes
      cases revokes
    exact ⟨other, counting.of_other other⟩
  refine ⟨fewer.trans capped.cap, fun index counting => ?_, fun index revoking => ?_,
    fun first second distinct one two => ?_⟩
  · obtain ⟨other, counting⟩ := others index counting
    exact (capped.counted index counting).advance_other other fewer
  · by_cases same : index = moved
    · subst same
      exact (capped.revoking index revoking).advance_self running
    · exact (capped.revoking index revoking).advance_other same trivial
  · exact capped.alone first second distinct (others first one).2 (others second two).2

/-- When a creation moves on, no other one is counting. -/
theorem Capped.create (capped : Capped requests application state) {moved : ι}
    (creates : (requests moved).creates = true)
    (running : (state.session moved).status = .running)
    (unstarted : (state.session moved).executed = 0 →
      state.session moved = Session.start ((requests moved).program application))
    (apart : CountsApart requests state moved) :
    Capped requests application (state.advance moved) := by
  have safe : State.SafeAt (capRely application.id) {} (fun _ => Creating application.id) state
      moved := by
    rcases Nat.eq_zero_or_pos (state.session moved).executed with zero | counted
    · intro _
      unfold State.moment
      rw [unstarted zero]
      exact CapRequest.safe_create application creates state.committed
    · exact capped.counted moved ⟨creates, running, counted⟩
  have only : ∀ index, index ≠ moved → ¬ Counting requests state index := by
    intro index other
    rcases Nat.eq_zero_or_pos (state.session moved).executed with zero | counted
    · exact apart creates zero index other
    · exact capped.alone moved index (Ne.symm other) ⟨creates, running, counted⟩
  have alone : ∀ index, Counting requests (state.advance moved) index → index = moved := by
    intro index counting
    by_contra other
    exact only index other (counting.of_other other)
  refine ⟨?_, fun index counting => ?_, fun index revoking => ?_,
    fun first second distinct one two => distinct ((alone first one).trans (alone second two).symm)⟩
  · cases commits : (state.session moved).commits with
    | false =>
        rw [State.advance_committed_of_not_commits state moved commits]
        exact capped.cap
    | true =>
        rw [State.advance_committed_of_commits state moved commits]
        obtain ⟨value, -, creating⟩ := safe.at_commit running commits
        exact creating.within
  · rw [alone index counting]
    exact safe.advance_self running
  · have other : index ≠ moved := by
      rintro rfl
      rw [creates] at revoking
      cases revoking
    exact (capped.revoking index revoking).advance_other other trivial

theorem Capped.abort (capped : Capped requests application state) (moved : ι) :
    Capped requests application (state.abort moved) := by
  have still : ∀ index, Counting requests (state.abort moved) index →
      Counting requests state index := by
    intro index counting
    by_cases same : index = moved
    · subst same
      have running := counting.2.1
      rw [State.abort_session_self] at running
      cases running
    · unfold Counting at *
      rwa [State.abort_session_of_ne state moved same] at counting
  exact ⟨capped.cap, fun index counting => (capped.counted index (still index counting)).abort,
    fun index revoking => (capped.revoking index revoking).abort,
    fun first second distinct one two =>
      capped.alone first second distinct (still first one) (still second two)⟩

/-- Where creations count apart, no committed state has more active subscriptions
than the cap. -/
theorem subscriptionCap_kept {db : Database}
    (within : (db.activeSubscriptions application.id).length ≤ maxSubscriptions)
    (reaches : ReflTransGen (State.GuardedStep (CountsApart requests))
      (State.start db fun index => (requests index).program application) state) :
    (state.committed.activeSubscriptions application.id).length ≤ maxSubscriptions := by
  have capped : Capped requests application state := by
    induction reaches with
    | refl =>
        refine ⟨within, ?_, fun index revokes => ?_, ?_⟩
        · exact fun index counting => absurd counting.2.2 (lt_irrefl 0)
        · exact State.start_safeAt (CapRequest.safe_revoke application revokes db)
        · exact fun first second _ counting => absurd counting.2.2 (lt_irrefl 0)
    | @tail state next reaches step ih =>
        obtain ⟨moved, ⟨enabled, apart, rfl⟩ | ⟨running, rfl⟩⟩ := step
        · cases creates : (requests moved).creates with
          | false => exact ih.revoke creates enabled.1
          | true =>
              refine ih.create creates enabled.1 (fun unstarted => ?_) apart
              exact State.session_of_unstarted (State.GuardedStep.reaches reaches) enabled.1
                unstarted
        · exact ih.abort moved
  exact capped.cap

end Runs

/-! ## Two creations at the cap -/

/-- Two requests that each create a subscription. -/
def capRivals : Bool → CapRequest := fun second =>
  .create (fun url => .ok url) "https://consumer.example.com/hook" ["domain.ready"]
    (if second then 21 else 20) "secret" 0

/-- An application with nine active subscriptions. -/
def nearlyFull : Database where
  applications := [sampleApplication]
  subscriptions := (List.range 9).map fun place =>
    { Webhooks.sampleSubscription with id := place }

def capStart : State store Bool Unit :=
  State.start nearlyFull fun index => (capRivals index).program sampleApplication

/-- One creation after the other: the second one is refused. -/
theorem subscriptionCap_kept_rivals :
    ((capStart.follow [false, false, false, true, true]).session true).status = .rolledBack ∧
      ((capStart.follow [false, false, false, true, true]).committed.activeSubscriptions
        sampleApplication.id).length ≤ maxSubscriptions := by
  have guarded : ReflTransGen (State.GuardedStep (CountsApart capRivals)) capStart
      (capStart.follow [false, false, false, true, true]) :=
    State.CanFollow.guarded (by decide +kernel)
  refine ⟨by decide +kernel, ?_⟩
  exact subscriptionCap_kept (by decide +kernel) guarded

/-- Both count nine, and both insert. -/
theorem subscriptionCap_exceeded :
    ∃ state, ReflTransGen State.Step capStart state ∧
      (nearlyFull.activeSubscriptions sampleApplication.id).length ≤ maxSubscriptions ∧
      maxSubscriptions < (state.committed.activeSubscriptions sampleApplication.id).length := by
  refine ⟨capStart.follow [false, true, false, true, false, true], State.GuardedStep.reaches
    (State.CanFollow.guarded
      (show State.CanFollow (fun _ _ => True) capStart _ by decide +kernel)), ?_⟩
  decide +kernel

end CustomDomain
