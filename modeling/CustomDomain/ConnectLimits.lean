import CustomDomain.BudgetRuns
import Mathlib.Data.Fintype.Prod

/-!
# Limits on Domain Connect links

A connect request counts the links handed out so far in one transaction, has its
URL signed outside of any, and writes the event that counts in another one, where
nothing is counted again.  The limits are kept when no request counts while
another one is between its count and the end of its second transaction; two that
count side by side exceed them.
-/

namespace CustomDomain

open Transaction Relation SlidingWindow

/-- A connect request: what it asks for, the clocks its two transactions read, and
the plan the second one is given. -/
structure ConnectRequest where
  environment : ConnectEnvironment
  domainId : Uuid
  redirectUri : Option String := none
  state : Option String := none
  prepared : Time
  recorded : Time
  plan : ConnectPlan

/-- The two transactions of a request. -/
inductive ConnectPhase where
  | prepare
  | record
  deriving DecidableEq

instance : Fintype ConnectPhase :=
  ⟨{.prepare, .record}, fun phase => by cases phase <;> decide⟩

def ConnectRequest.program (application : Application) (request : ConnectRequest) :
    ConnectPhase → Sql (Option ConnectPlan)
  | .prepare => do
      let plan ← prepareConnect request.environment application request.domainId
        request.redirectUri request.state request.prepared
      pure (some plan)
  | .record => do
      let _ ← recordConnect application request.plan request.recorded
      pure none

/-! ## Each transaction on its own -/

/-- Others leave the counted rows alone. -/
def quietRely : Rely store where
  Allows _ before after := after.ledger = before.ledger
  refl _ _ := rfl
  trans first second := second.trans first
  mono allows := allows

/-- There is room for the link of the plan. -/
structure LinkRoom (application : Application) (plan : ConnectPlan) (now : Time)
    (ledger : Ledger) : Prop where
  owner : plan.applicationId = application.id
  ofDomain : (Budget.linksOfDomain plan.domainId).Room application.id now ledger
  ofApplication : Budget.links.Room application.id now ledger

/-- A prepared request has written nothing and found room. -/
structure Prepared (application : Application) (now : Time) (found : Option ConnectPlan)
    (moment : Moment store) : Prop where
  untouched : moment.pending = id
  room : ∀ plan, found = some plan → LinkRoom application plan now moment.committed.ledger

theorem Prepared.later {application : Application} {now : Time} {found : Option ConnectPlan}
    {moment : Moment store} (prepared : Prepared application now found moment) {db : Database}
    (quiet : quietRely.Allows moment.locks moment.committed db) :
    Prepared application now found (moment.later db) where
  untouched := prepared.untouched
  room plan known := by
    change LinkRoom application plan now db.ledger
    rw [show db.ledger = moment.committed.ledger from quiet]
    exact prepared.room plan known

section Transactions

variable {application : Application}

/-- Nothing is written while a request is prepared. -/
def Untouched (about : Ledger → Prop) (moment : Moment store) : Prop :=
  moment.pending = id ∧ about moment.committed.ledger

theorem Untouched.later {about : Ledger → Prop} {moment : Moment store}
    (untouched : Untouched about moment) {db : Database}
    (quiet : quietRely.Allows moment.locks moment.committed db) :
    Untouched about (moment.later db) := by
  refine ⟨untouched.1, ?_⟩
  change about db.ledger
  rw [show db.ledger = moment.committed.ledger from quiet]
  exact untouched.2

theorem Untouched.view_eq {about : Ledger → Prop} {moment : Moment store}
    (untouched : Untouched about moment) : moment.view = moment.committed := by
  rw [Moment.view, untouched.1]
  rfl

theorem Untouched.enforce {about : Ledger → Prop} {moment : Moment store}
    (untouched : Untouched about moment) (applicationId : Uuid) (budget : Budget) (now : Time) :
    Safe quietRely {}
      (fun _ => Untouched fun ledger => about ledger ∧ budget.Room applicationId now ledger)
      (budget.enforce applicationId now) moment := by
  refine (Budget.enforce_safe (Untouched about) untouched ?_ (fun _ => trivial)
    fun _ _ _ _ => trivial).weaken ?_
  · intro moment db untouched quiet
    refine ⟨untouched.later quiet, ?_⟩
    rw [(untouched.later quiet).view_eq, untouched.view_eq]
    exact quiet
  · rintro _ moment ⟨untouched, room⟩
    rw [untouched.view_eq] at room
    exact ⟨untouched.1, untouched.2, room⟩

theorem prepareConnect_safe (environment : ConnectEnvironment) (domainId : Uuid)
    (redirectUri state : Option String) (now : Time) (db : Database) :
    Safe quietRely {} (fun plan => Prepared application now (some plan))
      (prepareConnect environment application domainId redirectUri state now) ⟨[], id, db⟩ := by
  unfold prepareConnect
  refine requireField_then ?_ fun _ _ _ => trivial
  refine requireField_then ?_ fun _ _ _ => trivial
  refine (getDomain_safe (Untouched fun _ => True) ⟨rfl, trivial⟩
    (fun _ _ untouched quiet => untouched.later quiet) (fun _ => trivial) (fun _ _ => trivial)
    application domainId false).bind ?_
  rintro domain moment ⟨untouched, same, mine⟩
  refine Safe.requireThen (fun _ => ?_) fun _ _ _ => trivial
  refine Safe.readThen fun db quiet => ⟨trivial, ?_⟩
  have read := untouched.later quiet
  split
  next providerId signer claim _ _ =>
    unfold enforceConnectLimits
    rw [mine]
    refine ((read.enforce application.id _ now).bind fun _ moment untouched =>
      untouched.enforce application.id _ now).bind fun _ moment untouched => ?_
    refine Safe.of_pure fun db quiet => Prepared.later ⟨untouched.1, ?_⟩ quiet
    rintro plan ⟨⟩
    exact ⟨rfl, untouched.2.1.2, untouched.2.2⟩
  next => exact Safe.of_raise fun _ _ => trivial

/-- What a recorded link adds. -/
def Ledger.link (application : Application) (plan : ConnectPlan) (stamp : Time) : Ledger :=
  .event ⟨plan.domainId, application.id, .connectUrlIssued plan.providerId plan.signer, stamp⟩

/-- A request that is recorded adds its link, stamped with its clock or later. -/
def LinkRecorded (application : Application) (plan : ConnectPlan) (now : Time)
    (moment : Moment store) : Prop :=
  ∃ stamp, now ≤ stamp ∧
    Holding application.id (.link application plan stamp) (fun _ => True) moment

theorem makeChecksDue_safe {moment : Moment store} {about : Ledger → Prop}
    (holding : Holding application.id .empty about moment) (domain : Domain) (at_ : Time) :
    Safe (ledgerRely application.id) {}
      (fun (after : Domain) moment => Holding application.id .empty about moment ∧
        after.id = domain.id ∧ after.applicationId = domain.applicationId)
      (makeChecksDue domain at_) moment := by
  refine Safe.foldEach (fun (scheduled : Domain) moment =>
      Holding application.id .empty about moment ∧ scheduled.id = domain.id ∧
        scheduled.applicationId = domain.applicationId)
    ⟨holding, rfl, rfl⟩ (fun _ _ _ holds allows => ⟨holds.1.later allows, holds.2⟩)
    fun scheduled check moment holds => ?_
  split
  next =>
    refine (scheduleCheck_safe holds.1 scheduled check at_ (fun _ => trivial)
      fun _ _ _ => trivial).weaken fun _ _ after => ?_
    exact ⟨after.1, after.2.1.trans holds.2.1, after.2.2.trans holds.2.2⟩
  next => exact Safe.of_pure fun _ allows => ⟨holds.1.later allows, holds.2⟩

theorem recordConnect_safe {plan : ConnectPlan} (owner : plan.applicationId = application.id)
    (now : Time) {db : Database} (stored : (db.application? application.id).isSome = true) :
    Safe (ledgerRely application.id) {} (fun _ => LinkRecorded application plan now)
      (recordConnect application plan now) ⟨[], id, db⟩ := by
  unfold recordConnect
  rw [owner]
  refine (lockApplication_deciding stored).bind fun _ moment deciding => ?_
  refine (getDomain_safe (Deciding application.id _) deciding
    (fun _ _ deciding allows => deciding.later allows) (fun _ => trivial) (fun _ _ => trivial)
    application plan.domainId false).bind ?_
  rintro domain moment ⟨deciding, same, mine⟩
  refine Safe.requireThen (fun _ => ?_) fun _ _ _ => trivial
  unfold startConnect
  refine ((deciding.toHolding.within (flushDomain_ledger _ _) (fun _ => trivial)
    fun _ _ _ => trivial).bind fun _ moment holding =>
      makeChecksDue_safe holding _ _).bind ?_
  rintro started moment ⟨holding, key, started?⟩
  refine (recordEvent_safe holding started _ now (fun _ => trivial) fun _ _ _ => trivial).bind ?_
  rintro _ moment ⟨stamp, later, holding⟩
  refine Safe.of_pure fun db allows => ⟨stamp, later, ?_⟩
  have after := holding.later allows
  rw [key.trans same, started?.trans mine] at after
  exact after

/-- The link of a plan there was room for. -/
theorem LinkRoom.admits {plan : ConnectPlan} {now stamp : Time} {ledger : Ledger}
    (room : LinkRoom application plan now ledger) (later : now ≤ stamp) {budget : Budget}
    (counted : budget = .links ∨ ∃ domainId, budget = .linksOfDomain domainId) :
    Admits budget.window budget.limit now (budget.stamps application.id ledger)
      (budget.stamps application.id (ledger.add (.link application plan stamp))) := by
  rw [Budget.stamps_add]
  rcases counted with rfl | ⟨domainId, rfl⟩
  · have one : Budget.links.stamps application.id (.link application plan stamp) = [stamp] := by
      simp [Budget.stamps, Budget.countsEvent, Ledger.link, Ledger.event, isConnectUrlIssued]
    rw [one]
    exact .one room.ofApplication later
  · by_cases same : plan.domainId = domainId
    · subst same
      have one : (Budget.linksOfDomain plan.domainId).stamps application.id
          (.link application plan stamp) = [stamp] := by
        simp [Budget.stamps, Budget.countsEvent, Ledger.link, Ledger.event, isConnectUrlIssued]
      rw [one]
      exact .one room.ofDomain later
    · have none : (Budget.linksOfDomain domainId).stamps application.id
          (.link application plan stamp) = [] := by
        simp [Budget.stamps, Budget.countsEvent, Ledger.link, Ledger.event, same]
      rw [none, List.append_nil]
      exact .none

end Transactions

/-! ## Requests that run together -/

section Runs

variable {ι : Type} (requests : ι → ConnectRequest)

/-- The two transactions of every request. -/
def connectStart (db : Database) (application : Application) :
    State store (ι × ConnectPhase) (Option ConnectPlan) :=
  State.start db fun index => (requests index.1).program application index.2

variable {requests} in
/-- The plan that `prepare_connect` has returned. -/
def planOf (state : State store (ι × ConnectPhase) (Option ConnectPlan)) (index : ι) :
    Option ConnectPlan :=
  match (state.session (index, .prepare)).status, (state.session (index, .prepare)).program with
  | .committed, .pure plan => plan
  | _, _ => none

/-- The second transaction runs once the first one has returned the plan. -/
def RecordsPlan (state : State store (ι × ConnectPhase) (Option ConnectPlan))
    (index : ι × ConnectPhase) : Prop :=
  index.2 = .record → planOf state index.1 = some (requests index.1).plan

/-- The request has started to read, and its second transaction is not done. -/
def InFlight (state : State store (ι × ConnectPhase) (Option ConnectPlan)) (index : ι) : Prop :=
  ((state.session (index, .prepare)).status = .running ∧
      0 < (state.session (index, .prepare)).executed) ∨
    (planOf state index = some (requests index).plan ∧
      (state.session (index, .record)).status = .running)

/-- Besides, a request starts to read only while no other one is in flight. -/
def ConnectsApart (state : State store (ι × ConnectPhase) (Option ConnectPlan))
    (index : ι × ConnectPhase) : Prop :=
  RecordsPlan requests state index ∧
    (index.2 = .prepare → (state.session index).executed = 0 →
      ∀ other, other ≠ index.1 → ¬ InFlight requests state other)

/-- What holds throughout such a run. -/
structure LinksCapped (application : Application)
    (state : State store (ι × ConnectPhase) (Option ConnectPlan)) : Prop where
  stored : (state.committed.application? application.id).isSome = true
  capped : ∀ budget : Budget, (budget = .links ∨ ∃ domainId, budget = .linksOfDomain domainId) →
    LimitKept budget.window budget.limit (budget.stamps application.id state.committed.ledger)
  alone : ∀ first second, InFlight requests state first → InFlight requests state second →
    first = second
  preparing : ∀ index, 0 < (state.session (index, .prepare)).executed →
    State.SafeAt quietRely {} (Prepared application (requests index).prepared) state
      (index, .prepare)
  unread : ∀ index, planOf state index ≠ some (requests index).plan →
    (state.session (index, .record)).status = .running →
    (state.session (index, .record)).executed = 0
  recording : ∀ index, planOf state index = some (requests index).plan →
    State.SafeAt (ledgerRely application.id) {}
      (fun _ => LinkRecorded application (requests index).plan (requests index).recorded) state
      (index, .record)
  room : ∀ index, planOf state index = some (requests index).plan →
    (state.session (index, .record)).status = .running →
    LinkRoom application (requests index).plan (requests index).prepared state.committed.ledger

variable {requests} {application : Application}
  {state : State store (ι × ConnectPhase) (Option ConnectPlan)}

theorem planOf_of_running {index : ι}
    (running : (state.session (index, .prepare)).status = .running) : planOf state index = none := by
  unfold planOf
  rw [running]

theorem planOf_congr {next : State store (ι × ConnectPhase) (Option ConnectPlan)} {index : ι}
    (same : next.session (index, .prepare) = state.session (index, .prepare)) :
    planOf next index = planOf state index := by
  unfold planOf
  rw [same]

theorem inFlight_congr {next : State store (ι × ConnectPhase) (Option ConnectPlan)} {index : ι}
    (same : ∀ phase, next.session (index, phase) = state.session (index, phase)) :
    InFlight requests next index ↔ InFlight requests state index := by
  unfold InFlight
  rw [planOf_congr (same .prepare), same, same]

/-- When a request moves on, no other one is in flight. -/
theorem LinksCapped.only (links : LinksCapped requests application state)
    {moved : ι × ConnectPhase} (running : (state.session moved).status = .running)
    (apart : ConnectsApart requests state moved) {other : ι} (distinct : other ≠ moved.1) :
    ¬ InFlight requests state other := by
  intro flying
  obtain ⟨index, phase⟩ := moved
  cases phase with
  | prepare =>
      rcases Nat.eq_zero_or_pos (state.session (index, .prepare)).executed with zero | started
      · exact apart.2 rfl zero other distinct flying
      · exact distinct (links.alone other index flying (.inl ⟨running, started⟩))
  | record => exact distinct (links.alone other index flying (.inr ⟨apart.1 rfl, running⟩))

variable [DecidableEq ι]

theorem advance_session_of_request {moved : ι × ConnectPhase} {index : ι}
    (other : index ≠ moved.1) (phase : ConnectPhase) :
    (state.advance moved).session (index, phase) = state.session (index, phase) := by
  refine State.advance_session_of_ne state moved ?_
  rintro rfl
  exact other rfl

/-- The plan appears with the commit of the first transaction. -/
theorem planOf_advance {index : ι} {plan : ConnectPlan}
    (running : (state.session (index, .prepare)).status = .running)
    (found : planOf (state.advance (index, .prepare)) index = some plan) :
    (state.session (index, .prepare)).program = .pure (some plan) := by
  unfold planOf at found
  rw [State.advance_session_self] at found
  unfold Session.execute at found
  split at found
  next committed shape =>
    cases program : (state.session (index, .prepare)).program with
    | pure value =>
        simp only [program, Session.finish] at shape
        cases shape
        rw [found]
    | raise error => simp [program, Session.finish] at committed
    | select next => simp [program, running] at committed
    | write rows change next => simp [program, running] at committed
    | emit effect next => simp [program, running] at committed
  next => cases found

/-- It is enough to look at the request that moved on. -/
theorem LinksCapped.of_moved (links : LinksCapped requests application state)
    {moved : ι × ConnectPhase} (running : (state.session moved).status = .running)
    (apart : ConnectsApart requests state moved)
    (stored : ((state.advance moved).committed.application? application.id).isSome = true)
    (capped : ∀ budget : Budget,
      (budget = .links ∨ ∃ domainId, budget = .linksOfDomain domainId) →
      LimitKept budget.window budget.limit
        (budget.stamps application.id (state.advance moved).committed.ledger))
    (preparing : State.SafeAt quietRely {} (Prepared application (requests moved.1).prepared)
      (state.advance moved) (moved.1, .prepare))
    (unread : planOf (state.advance moved) moved.1 ≠ some (requests moved.1).plan →
      ((state.advance moved).session (moved.1, .record)).status = .running →
      ((state.advance moved).session (moved.1, .record)).executed = 0)
    (recording : planOf (state.advance moved) moved.1 = some (requests moved.1).plan →
      State.SafeAt (ledgerRely application.id) {}
        (fun _ => LinkRecorded application (requests moved.1).plan (requests moved.1).recorded)
        (state.advance moved) (moved.1, .record))
    (room : planOf (state.advance moved) moved.1 = some (requests moved.1).plan →
      ((state.advance moved).session (moved.1, .record)).status = .running →
      LinkRoom application (requests moved.1).plan (requests moved.1).prepared
        (state.advance moved).committed.ledger) :
    LinksCapped requests application (state.advance moved) := by
  have grounded : ∀ index, index ≠ moved.1 → ¬ InFlight requests (state.advance moved) index := by
    intro index distinct flying
    exact links.only running apart distinct
      ((inFlight_congr (advance_session_of_request distinct)).mp flying)
  have moves : ∀ index, InFlight requests (state.advance moved) index → index = moved.1 :=
    fun index flying => by_contra fun distinct => grounded index distinct flying
  refine ⟨stored, capped, fun first second one two => (moves first one).trans (moves second two).symm,
    fun index started => ?_, fun index none still => ?_, fun index known => ?_,
    fun index known still => ?_⟩
  · by_cases same : index = moved.1
    · rw [same]
      exact preparing
    · exact fun still => absurd (.inl ⟨still, started⟩) (grounded index same)
  · by_cases same : index = moved.1
    · subst same
      exact unread none still
    · rw [planOf_congr (advance_session_of_request same .prepare)] at none
      rw [advance_session_of_request same] at still ⊢
      exact links.unread index none still
  · by_cases same : index = moved.1
    · subst same
      exact recording known
    · exact fun still => absurd (.inr ⟨known, still⟩) (grounded index same)
  · by_cases same : index = moved.1
    · subst same
      exact room known still
    · exact absurd (.inr ⟨known, still⟩) (grounded index same)

/-- A session that has not started is as it was. -/
def Unstarted (application : Application) (requests : ι → ConnectRequest)
    (state : State store (ι × ConnectPhase) (Option ConnectPlan)) : Prop :=
  ∀ index, (state.session index).status = .running → (state.session index).executed = 0 →
    state.session index = Session.start ((requests index.1).program application index.2)

theorem LinksCapped.prepare (links : LinksCapped requests application state)
    (unstarted : Unstarted application requests state) {index : ι}
    (running : (state.session (index, .prepare)).status = .running)
    (apart : ConnectsApart requests state (index, .prepare)) :
    LinksCapped requests application (state.advance (index, .prepare)) := by
  have safe : State.SafeAt quietRely {} (Prepared application (requests index).prepared) state
      (index, .prepare) := by
    rcases Nat.eq_zero_or_pos (state.session (index, .prepare)).executed with zero | started
    · intro _
      unfold State.moment
      rw [unstarted _ running zero]
      refine (prepareConnect_safe _ _ _ _ _ state.committed).bind fun plan moment prepared => ?_
      exact Safe.of_pure fun _ quiet => prepared.later quiet
    · exact links.preparing index started
  have same : (state.advance (index, .prepare)).committed = state.committed := by
    cases commits : (state.session (index, .prepare)).commits with
    | false => exact State.advance_committed_of_not_commits state _ commits
    | true =>
        obtain ⟨value, -, prepared⟩ := safe.at_commit running commits
        rw [State.advance_committed_of_commits state _ commits]
        change (state.session (index, .prepare)).pending state.committed = state.committed
        rw [show (state.session (index, .prepare)).pending = id from prepared.untouched]
        rfl
  have record : (state.advance (index, .prepare)).session (index, .record) =
      state.session (index, .record) :=
    State.advance_session_of_ne state _ (by simp)
  have none : planOf state index ≠ some (requests index).plan := by
    rw [planOf_of_running running]
    exact nofun
  have room : planOf (state.advance (index, .prepare)) index = some (requests index).plan →
      LinkRoom application (requests index).plan (requests index).prepared
        state.committed.ledger := by
    intro found
    have shape := planOf_advance running found
    obtain ⟨value, shape', prepared⟩ := safe.at_commit running (by simp [Session.commits, shape])
    rw [shape] at shape'
    cases shape'
    exact prepared.room _ rfl
  refine links.of_moved running apart (by rw [same]; exact links.stored)
    (by rw [same]; exact links.capped) (safe.advance_self running) ?_ ?_ ?_
  · intro _ still
    rw [record] at still ⊢
    exact links.unread index none still
  · intro found still
    dsimp only at still ⊢
    rw [record] at still
    have unread := links.unread index none still
    unfold State.moment
    rw [record, unstarted _ still unread, same]
    refine Safe.bind (recordConnect_safe (room found).owner _ links.stored) ?_
    rintro _ moment ⟨stamp, later, holding⟩
    exact Safe.of_pure fun _ allows => ⟨stamp, later, holding.later allows⟩
  · intro found _
    rw [same]
    exact room found

theorem LinksCapped.record (links : LinksCapped requests application state)
    (forward : ∀ index, (requests index).prepared ≤ (requests index).recorded) {index : ι}
    (running : (state.session (index, .record)).status = .running)
    (apart : ConnectsApart requests state (index, .record)) :
    LinksCapped requests application (state.advance (index, .record)) := by
  have found := apart.1 rfl
  have prepare : (state.advance (index, .record)).session (index, .prepare) =
      state.session (index, .prepare) :=
    State.advance_session_of_ne state _ (by simp)
  have found' : planOf (state.advance (index, .record)) index = some (requests index).plan := by
    rw [planOf_congr prepare]
    exact found
  have safe := links.recording index found
  have done : (state.session (index, .prepare)).status ≠ .running := by
    intro still
    rw [planOf_of_running still] at found
    cases found
  have after : ((state.advance (index, .record)).committed.application? application.id).isSome =
        true ∧
      ∀ budget : Budget, (budget = .links ∨ ∃ domainId, budget = .linksOfDomain domainId) →
        LimitKept budget.window budget.limit
          (budget.stamps application.id (state.advance (index, .record)).committed.ledger) := by
    cases commits : (state.session (index, .record)).commits with
    | false =>
        rw [State.advance_committed_of_not_commits state _ commits]
        exact ⟨links.stored, links.capped⟩
    | true =>
        obtain ⟨value, -, stamp, later, holding⟩ := safe.at_commit running commits
        rw [State.advance_committed_of_commits state _ commits]
        refine ⟨?_, fun budget counted => ?_⟩
        · have stored := links.stored
          unfold Database.application? at stored ⊢
          rw [show (state.view (index, .record)).applications = state.committed.applications from
            holding.applications state.committed]
          exact stored
        · rw [show (state.view (index, .record)).ledger = _ from holding.ledger state.committed]
          have room := links.room index found running
          exact (room.admits ((forward index).trans later) counted).limitKept
            (links.capped budget counted)
  refine links.of_moved running apart after.1 after.2 ?_ ?_ (fun _ => safe.advance_self running) ?_
  · intro still
    rw [prepare] at still
    exact absurd still done
  · exact fun missing => absurd found' missing
  · intro _ still
    cases commits : (state.session (index, .record)).commits with
    | false =>
        rw [State.advance_committed_of_not_commits state _ commits]
        exact links.room index found running
    | true =>
        obtain ⟨value, shape, -⟩ := safe.at_commit running commits
        rw [State.advance_session_self] at still
        unfold Session.execute at still
        rw [shape] at still
        cases still

theorem LinksCapped.abort (links : LinksCapped requests application state)
    {moved : ι × ConnectPhase} (running : (state.session moved).status = .running) :
    LinksCapped requests application (state.abort moved) := by
  have still : ∀ index, ((state.abort moved).session index).status = .running →
      (state.abort moved).session index = state.session index := by
    intro index stillRunning
    by_cases same : index = moved
    · subst same
      rw [State.abort_session_self] at stillRunning
      cases stillRunning
    · exact State.abort_session_of_ne state moved same
  have plans : ∀ index, planOf (state.abort moved) index = planOf state index := by
    intro index
    by_cases same : (index, ConnectPhase.prepare) = moved
    · subst same
      rw [planOf_of_running running]
      unfold planOf
      rw [State.abort_session_self]
      rfl
    · exact planOf_congr (State.abort_session_of_ne state moved same)
  have flying : ∀ index, InFlight requests (state.abort moved) index →
      InFlight requests state index := by
    rintro index (⟨stillRunning, started⟩ | ⟨found, stillRunning⟩)
    · have same := still _ stillRunning
      rw [same] at stillRunning started
      exact .inl ⟨stillRunning, started⟩
    · have same := still _ stillRunning
      rw [same] at stillRunning
      exact .inr ⟨by rwa [plans] at found, stillRunning⟩
  refine ⟨links.stored, links.capped,
    fun first second one two => links.alone first second (flying first one) (flying second two),
    fun index started stillRunning => ?_, fun index none stillRunning => ?_,
    fun index found => ?_, fun index found stillRunning => ?_⟩
  · rw [still _ stillRunning] at started
    exact (links.preparing index started).abort stillRunning
  · have same := still _ stillRunning
    rw [plans] at none
    rw [same] at stillRunning ⊢
    exact links.unread index none stillRunning
  · rw [plans] at found
    exact (links.recording index found).abort
  · have same := still _ stillRunning
    rw [plans] at found
    rw [same] at stillRunning
    exact links.room index found stillRunning

/-- Where requests connect apart and their clocks are in order, no window has more
links than the limits say. -/
theorem linkLimits_kept {db : Database}
    (stored : (db.application? application.id).isSome = true)
    (capped : ∀ budget : Budget,
      (budget = .links ∨ ∃ domainId, budget = .linksOfDomain domainId) →
      LimitKept budget.window budget.limit (budget.stamps application.id db.ledger))
    (forward : ∀ index, (requests index).prepared ≤ (requests index).recorded)
    (reaches : ReflTransGen (State.GuardedStep (ConnectsApart requests))
      (connectStart requests db application) state) :
    ∀ budget : Budget, (budget = .links ∨ ∃ domainId, budget = .linksOfDomain domainId) →
      LimitKept budget.window budget.limit (budget.stamps application.id state.committed.ledger) := by
  have links : LinksCapped requests application state := by
    induction reaches with
    | refl =>
        refine ⟨stored, capped, ?_, fun index started => ?_, fun index _ _ => rfl,
          fun index found => ?_, fun index found => ?_⟩
        · rintro first second (⟨-, started⟩ | ⟨found, -⟩)
          · exact absurd started (lt_irrefl 0)
          · cases found
        · exact absurd started (lt_irrefl 0)
        · cases found
        · cases found
    | @tail state next reaches step ih =>
        have unstarted : Unstarted application requests state := fun index running zero =>
          State.session_of_unstarted (State.GuardedStep.reaches reaches) running zero
        obtain ⟨⟨index, phase⟩, ⟨enabled, apart, rfl⟩ | ⟨running, rfl⟩⟩ := step
        · cases phase with
          | prepare => exact ih.prepare unstarted enabled.1 apart
          | record => exact ih.record forward enabled.1 apart
        · exact ih.abort running
  exact links.capped

instance (state : State store (ι × ConnectPhase) (Option ConnectPlan))
    (index : ι × ConnectPhase) : Decidable (RecordsPlan requests state index) :=
  inferInstanceAs (Decidable (_ → _))

instance (state : State store (ι × ConnectPhase) (Option ConnectPlan)) (index : ι) :
    Decidable (InFlight requests state index) :=
  inferInstanceAs (Decidable (_ ∨ _))

instance [Fintype ι] (state : State store (ι × ConnectPhase) (Option ConnectPlan))
    (index : ι × ConnectPhase) : Decidable (ConnectsApart requests state index) :=
  inferInstanceAs (Decidable (_ ∧ (_ → _ → ∀ _, _ → _)))

end Runs

/-! ## Two requests at the limit -/

/-- Two requests for links to one domain. -/
def connectRivals : Bool → ConnectRequest := fun _ =>
  { environment :=
      { urlsplit := fun _ => none
        setup := fun _ _ => .ok (some "provider", some "local") }
    domainId := 7
    prepared := 0
    recorded := 0
    plan := ⟨7, 1, "token", some "provider", some "local"⟩ }

/-- Nine links were handed out within the hour. -/
def nineLinks : Database where
  applications := [sampleApplication]
  domains :=
    [{ id := 7
       applicationId := 1
       hostname := "app.customer.com"
       reference := "w1"
       createdAt := 0
       updatedAt := 0
       claims :=
        [{ id := 8
           txtRecordName := "_custom-domain-challenge.app.customer.com"
           token := "token"
           cnameTarget := "edge.example.net"
           createdAt := 0 }] }]
  events := (List.range 9).map fun place =>
    ⟨7, 1, .connectUrlIssued none none, (place : Int) - 9⟩

theorem nineLinks_limitKept (budget : Budget)
    (counted : budget = .links ∨ ∃ domainId, budget = .linksOfDomain domainId) :
    LimitKept budget.window budget.limit
      (budget.stamps sampleApplication.id nineLinks.ledger) := by
  have few : (budget.stamps sampleApplication.id nineLinks.ledger).length ≤ 9 := by
    unfold Budget.stamps
    rw [show nineLinks.ledger.sessions = [] from rfl, List.filter_nil, List.map_nil,
      List.append_nil, List.length_map]
    exact List.length_filter_le _ _
  refine .of_length (few.trans ?_)
  rcases counted with rfl | ⟨domainId, rfl⟩
  · decide
  · exact Nat.le_succ 9

/-- The steps of one request. -/
def connectSteps (request : Bool) : List (Bool × ConnectPhase) :=
  List.replicate 7 (request, .prepare) ++ List.replicate 8 (request, .record)

/-- One request after the other: the second one is refused. -/
theorem linkLimits_kept_rivals :
    (((connectStart connectRivals nineLinks sampleApplication).follow
        (connectSteps false ++ List.replicate 7 (true, .prepare))).session (true, .prepare)).status =
        .rolledBack ∧
      ∀ budget : Budget, (budget = .links ∨ ∃ domainId, budget = .linksOfDomain domainId) →
        LimitKept budget.window budget.limit (budget.stamps sampleApplication.id
          ((connectStart connectRivals nineLinks sampleApplication).follow
            (connectSteps false ++ List.replicate 7 (true, .prepare))).committed.ledger) := by
  have apart : ReflTransGen (State.GuardedStep (ConnectsApart connectRivals))
      (connectStart connectRivals nineLinks sampleApplication)
      ((connectStart connectRivals nineLinks sampleApplication).follow
        (connectSteps false ++ List.replicate 7 (true, .prepare))) :=
    State.CanFollow.guarded (by decide +kernel)
  refine ⟨by decide +kernel, ?_⟩
  exact linkLimits_kept (by decide) nineLinks_limitKept (fun _ => le_rfl) apart

/-- Both count nine, and both hand out a link. -/
theorem linkLimits_exceeded :
    ∃ state, ReflTransGen (State.GuardedStep (RecordsPlan connectRivals))
        (connectStart connectRivals nineLinks sampleApplication) state ∧
      (∀ budget : Budget, (budget = .links ∨ ∃ domainId, budget = .linksOfDomain domainId) →
        LimitKept budget.window budget.limit
          (budget.stamps sampleApplication.id nineLinks.ledger)) ∧
      ¬ LimitKept (Budget.linksOfDomain 7).window (Budget.linksOfDomain 7).limit
        ((Budget.linksOfDomain 7).stamps sampleApplication.id state.committed.ledger) := by
  refine ⟨(connectStart connectRivals nineLinks sampleApplication).follow
    (List.replicate 7 (false, .prepare) ++ List.replicate 7 (true, .prepare) ++
      List.replicate 8 (false, .record) ++ List.replicate 7 (true, .record)),
    State.CanFollow.guarded (by decide +kernel), nineLinks_limitKept, fun kept => ?_⟩
  exact absurd (kept (-10)) (by decide +kernel)

end CustomDomain
