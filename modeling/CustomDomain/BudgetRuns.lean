import CustomDomain.LedgerStatements

/-!
# Budgets counted under the application's row lock

`claim_domain`, `request_recheck` and `create_session` lock the application's row
before they count and hold it to their commit.  Whatever clocks they are given,
every window has at most as many accepted requests as the budget says, since a
request is stamped with its own clock or later and counts everything after the
start of the window that ends with it.  When clocks do not go backwards, the wait
that a refused request is told is enough.
-/

namespace CustomDomain

open Transaction Relation SlidingWindow

/-- A request that is counted against a budget. -/
inductive BudgetRequest where
  | register (environment : Environment) (hostname reference : String) (fresh : Fresh)
      (now : Time)
  | recheck (domainId : Uuid) (requestedBy : String) (now : Time)
  | openSession (environment : ConnectEnvironment) (hashToken : String → String)
      (request : SessionRequest) (baseUrl : Option String) (id : Uuid) (token : String)
      (now : Time)

namespace BudgetRequest

def now : BudgetRequest → Time
  | .register _ _ _ _ now | .recheck _ _ now | .openSession _ _ _ _ _ _ now => now

def program (application : Application) : BudgetRequest → Sql Unit
  | .register environment hostname reference fresh now => do
      let _ ← claimDomain environment application hostname reference fresh now
      pure ()
  | .recheck domainId requestedBy now => do
      let _ ← requestRecheck application domainId requestedBy now
      pure ()
  | .openSession environment hashToken request baseUrl id token now => do
      let _ ← createSession environment hashToken application request baseUrl id token now
      pure ()

/-- The budgets the request is counted against. -/
def budgets : BudgetRequest → List Budget
  | .register .. => [.registrations]
  | .recheck .. => [.rechecks]
  | .openSession _ _ request .. => [.sessionsOfDomain request.domainId, .sessions]

/-- The same request again: with another clock, and with identifiers and tokens
drawn anew. -/
inductive Repeats : BudgetRequest → BudgetRequest → Prop where
  | register {environment : Environment} {hostname reference : String} {fresh fresh' : Fresh}
      {now now' : Time} :
      Repeats (.register environment hostname reference fresh now)
        (.register environment hostname reference fresh' now')
  | recheck {domainId : Uuid} {requestedBy : String} {now now' : Time} :
      Repeats (.recheck domainId requestedBy now) (.recheck domainId requestedBy now')
  | openSession {environment : ConnectEnvironment} {hashToken : String → String}
      {request : SessionRequest} {baseUrl : Option String} {id id' : Uuid} {token token' : String}
      {now now' : Time} :
      Repeats (.openSession environment hashToken request baseUrl id token now)
        (.openSession environment hashToken request baseUrl id' token' now')

end BudgetRequest

/-- When a domain was rechecked on request. -/
def Ledger.rechecksOf (ledger : Ledger) (domainId : Uuid) : List Time :=
  (ledger.events.filter fun event =>
    decide (event.domainId = domainId) && isRecheckRequested event.payload).map (·.createdAt)

def recheckedMessage : String := "This domain was rechecked less than 60 seconds ago"

/-- Why a request is told to wait, and how long. -/
inductive Deferral (applicationId : Uuid) : BudgetRequest → String → Int → Ledger → Prop where
  | spent {request : BudgetRequest} {budget : Budget} {wait : Int} {ledger : Ledger}
      (counted : budget ∈ request.budgets)
      (spent : budget.Spent applicationId request.now wait ledger) :
      Deferral applicationId request budget.message wait ledger
  | soon {domainId : Uuid} {requestedBy : String} {now last : Time} {ledger : Ledger}
      (latest : (ledger.rechecksOf domainId).max? = some last)
      (early : now < last + recheckMinInterval) :
      Deferral applicationId (.recheck domainId requestedBy now) recheckedMessage
        (retryAfter (last + recheckMinInterval - now)) ledger

/-- What an accepted request adds is within every budget and not too soon. -/
structure Allowed (applicationId : Uuid) (now : Time) (more ledger : Ledger) : Prop where
  admits : ∀ budget : Budget, Admits budget.window budget.limit now
    (budget.stamps applicationId ledger) (budget.stamps applicationId (ledger.add more))
  apart : ∀ domainId, Apart recheckMinInterval (ledger.rechecksOf domainId) →
    Apart recheckMinInterval ((ledger.add more).rechecksOf domainId)

/-! ## What one more row counts for -/

theorem Ledger.rechecksOf_add (ledger more : Ledger) (domainId : Uuid) :
    (ledger.add more).rechecksOf domainId =
      ledger.rechecksOf domainId ++ more.rechecksOf domainId := by
  simp [Ledger.rechecksOf, Ledger.add]

/-- A budget counts events or sessions, not both. -/
theorem Budget.counts_one_kind (applicationId : Uuid) (budget : Budget) :
    (∀ event, budget.countsEvent applicationId event = false) ∨
      ∀ session, budget.countsSession applicationId session = false := by
  cases budget with
  | registrations => exact .inr fun _ => rfl
  | rechecks => exact .inr fun _ => rfl
  | sessionsOfDomain => exact .inl fun _ => rfl
  | sessions => exact .inl fun _ => rfl
  | linksOfDomain => exact .inr fun _ => rfl
  | links => exact .inr fun _ => rfl

theorem Budget.stamps_add (applicationId : Uuid) (budget : Budget) (ledger more : Ledger) :
    budget.stamps applicationId (ledger.add more) =
      budget.stamps applicationId ledger ++ budget.stamps applicationId more := by
  unfold Budget.stamps Ledger.add
  rcases budget.counts_one_kind applicationId with events | sessions
  · have none : ∀ rows : List DomainEvent, rows.filter (budget.countsEvent applicationId) = [] :=
      fun rows => List.filter_eq_nil_iff.mpr fun event _ => by simp [events event]
    simp [none]
  · have none : ∀ rows : List ConnectSession,
        rows.filter (budget.countsSession applicationId) = [] :=
      fun rows => List.filter_eq_nil_iff.mpr fun session _ => by simp [sessions session]
    simp [none]

theorem Allowed.of_stamps {applicationId : Uuid} {now : Time} {more ledger : Ledger}
    (stamps : ∀ budget : Budget, budget.stamps applicationId more = [] ∨
      (budget.Room applicationId now ledger ∧
        ∃ stamp, now ≤ stamp ∧ budget.stamps applicationId more = [stamp]))
    (rechecks : ∀ domainId, more.rechecksOf domainId = [] ∨
      ∃ stamp, more.rechecksOf domainId = [stamp] ∧
        ∀ last, (ledger.rechecksOf domainId).max? = some last → last + recheckMinInterval ≤ stamp) :
    Allowed applicationId now more ledger where
  admits budget := by
    rw [Budget.stamps_add]
    rcases stamps budget with none | ⟨room, stamp, later, one⟩
    · rw [none, List.append_nil]
      exact .none
    · rw [one]
      exact .one room later
  apart domainId apart := by
    rw [Ledger.rechecksOf_add]
    rcases rechecks domainId with none | ⟨stamp, one, late⟩
    · rw [none, List.append_nil]
      exact apart
    · rw [one]
      exact apart.append late

/-! ## Each request on its own -/

/-- What a request that is told to wait has done: nothing. -/
def budgetOutline (applicationId : Uuid) (request : BudgetRequest) : Outline store where
  raise error moment := ∀ message wait, error = .rateLimited message wait →
    Deferral applicationId request message wait moment.committed.ledger ∧
      moment.view.domains = moment.committed.domains ∧
      moment.view.ledger = moment.committed.ledger

/-- An accepted request holds the lock, and what it adds is allowed. -/
def Accepted (applicationId : Uuid) (request : BudgetRequest) (moment : Moment store) : Prop :=
  ∃ more, Holding applicationId more (Allowed applicationId request.now more) moment

theorem Accepted.later {applicationId : Uuid} {request : BudgetRequest} {moment : Moment store}
    (accepted : Accepted applicationId request moment) {db : Database}
    (allows : (ledgerRely applicationId).Allows moment.locks moment.committed db) :
    Accepted applicationId request (moment.later db) := by
  obtain ⟨more, holding⟩ := accepted
  exact ⟨more, holding.later allows⟩

section Requests

variable {application : Application} (request : BudgetRequest) {about : Ledger → Prop}
  {moment : Moment store}

variable {request} in
theorem budgetOutline_raise {applicationId : Uuid} (error : ServiceError) (moment : Moment store)
    (unlimited : Unlimited error) : (budgetOutline applicationId request).raise error moment :=
  fun message wait limited => absurd limited (unlimited message wait)

variable {request} in
theorem budgetOutline_unlimited {applicationId : Uuid} {error : ServiceError}
    (unlimited : Unlimited error) :
    (ledgerRely applicationId).Always moment
      ((budgetOutline applicationId request).raise error) :=
  fun _ _ => budgetOutline_raise error _ unlimited

/-- One of the request's budgets, counted under the lock. -/
theorem Deciding.count {budget : Budget} (deciding : Deciding application.id about moment)
    (counted : budget ∈ request.budgets) :
    Safe (ledgerRely application.id) (budgetOutline application.id request)
      (fun _ => Deciding application.id fun ledger =>
        about ledger ∧ budget.Room application.id request.now ledger)
      (budget.enforce application.id request.now) moment := by
  refine deciding.enforce application.id (fun _ => trivial) ?_
  rintro moment wait deciding spent _ _ ⟨⟩
  exact ⟨.spent counted spent, deciding.domains _, deciding.view_ledger⟩

/-- The domain of a request, loaded under the lock. -/
theorem Deciding.load (deciding : Deciding application.id about moment) (domainId : Uuid)
    (includeDeleted : Bool) :
    Safe (ledgerRely application.id) (budgetOutline application.id request)
      (fun domain moment => Deciding application.id about moment ∧ domain.id = domainId ∧
        domain.applicationId = application.id)
      (getDomain application domainId includeDeleted) moment :=
  getDomain_safe (Deciding application.id about) deciding
    (fun _ _ deciding allows => deciding.later allows) (fun _ => trivial)
    (fun moment _ => budgetOutline_raise _ moment fun _ _ => by simp) application domainId
    includeDeleted

theorem enforce_ledger (environment : Environment) :
    (enforce environment application).Within TouchesLocks Unlimited := by
  have limited : ∀ scope counted limit,
      (enforceLimit scope counted limit).Within TouchesLocks Unlimited := by
    intro scope counted limit
    cases limit with
    | none => exact trivial
    | some limit =>
        refine Program.Within.bind (fun _ => trivial) fun live => ?_
        exact .require fun _ _ => by simp
  unfold enforce
  refine Program.Within.bind ?_ fun limit => ?_
  · unfold deploymentLimit
    split
    next => exact trivial
    next =>
      split
      next => exact fun _ _ => by simp
      next => exact trivial
  · have limits := (limited .application (some application.id) application.maxDomains).bind
      fun _ => limited .deployment none limit
    dsimp only
    split
    next => exact (acquireLock_within _ _).bind fun _ => limits
    next => exact limits

/-- What a registration counts for. -/
theorem Allowed.registration {applicationId : Uuid} {now created issued : Time}
    {ledger : Ledger} (room : Budget.registrations.Room applicationId now ledger)
    (later : now ≤ created) (domainId owner claimId : Uuid) (canonical reference name : String) :
    Allowed applicationId now
      ((Ledger.empty.add (.event ⟨domainId, owner, .domainCreated canonical reference,
        created⟩)).add (.event ⟨domainId, owner, .claimIssued claimId name, issued⟩)) ledger := by
  refine .of_stamps (fun budget => ?_) fun other => .inl ?_
  · cases budget with
    | registrations =>
        by_cases mine : owner = applicationId
        · exact .inr ⟨room, created, later, by
            simp [Budget.stamps, Budget.countsEvent, Ledger.add, Ledger.event,
              Ledger.empty, mine, isDomainCreated]⟩
        · exact .inl (by
            simp [Budget.stamps, Budget.countsEvent, Ledger.add, Ledger.event,
              Ledger.empty, mine])
    | _ =>
        exact .inl (by
          simp [Budget.stamps, Budget.countsEvent, Ledger.add, Ledger.event,
            Ledger.empty, isRecheckRequested, isConnectUrlIssued])
  · simp [Ledger.rechecksOf, Ledger.add, Ledger.event, Ledger.empty, isRecheckRequested]

/-- What a recheck counts for. -/
theorem Allowed.recheck {applicationId : Uuid} {now stamp : Time} {ledger : Ledger}
    {domainId : Uuid} (room : Budget.rechecks.Room applicationId now ledger)
    (late : ∀ last, (ledger.rechecksOf domainId).max? = some last →
      last + recheckMinInterval ≤ now) (later : now ≤ stamp) (owner : Uuid)
    (requestedBy : String) :
    Allowed applicationId now
      (Ledger.empty.add (.event ⟨domainId, owner, .recheckRequested requestedBy, stamp⟩))
      ledger := by
  refine .of_stamps (fun budget => ?_) fun other => ?_
  · cases budget with
    | rechecks =>
        by_cases mine : owner = applicationId
        · exact .inr ⟨room, stamp, later, by
            simp [Budget.stamps, Budget.countsEvent, Ledger.add, Ledger.event,
              Ledger.empty, mine, isRecheckRequested]⟩
        · exact .inl (by
            simp [Budget.stamps, Budget.countsEvent, Ledger.add, Ledger.event,
              Ledger.empty, mine])
    | _ =>
        exact .inl (by
          simp [Budget.stamps, Budget.countsEvent, Ledger.add, Ledger.event,
            Ledger.empty, isDomainCreated, isConnectUrlIssued])
  · by_cases same : domainId = other
    · refine .inr ⟨stamp, ?_, ?_⟩
      · simp [Ledger.rechecksOf, Ledger.add, Ledger.event, Ledger.empty, isRecheckRequested, same]
      · rw [← same]
        exact fun last latest => (late last latest).trans later
    · exact .inl (by
        simp [Ledger.rechecksOf, Ledger.add, Ledger.event, Ledger.empty, same])

/-- What a connect session counts for. -/
theorem Allowed.session {applicationId domainId : Uuid} {now : Time} {ledger : Ledger}
    {session : ConnectSession} (owner : session.domainId = domainId)
    (created : session.createdAt = now)
    (ofDomain : (Budget.sessionsOfDomain domainId).Room applicationId now ledger)
    (ofApplication : Budget.sessions.Room applicationId now ledger) :
    Allowed applicationId now ⟨[], [session]⟩ ledger := by
  subst owner created
  refine .of_stamps (fun budget => ?_) fun other => .inl rfl
  cases budget with
  | sessionsOfDomain domainId =>
      by_cases same : session.domainId = domainId
      · rw [same] at ofDomain
        exact .inr ⟨ofDomain, session.createdAt, le_rfl, by
          simp [Budget.stamps, Budget.countsSession, same]⟩
      · exact .inl (by simp [Budget.stamps, Budget.countsSession, same])
  | sessions =>
      by_cases mine : session.applicationId = applicationId
      · exact .inr ⟨ofApplication, session.createdAt, le_rfl, by
          simp [Budget.stamps, Budget.countsSession, mine]⟩
      · exact .inl (by simp [Budget.stamps, Budget.countsSession, mine])
  | _ => exact .inl (by simp [Budget.stamps, Budget.countsSession])

theorem claimDomain_accepted {db : Database}
    (stored : (db.application? application.id).isSome = true) (environment : Environment)
    (hostname reference : String) (fresh : Fresh) (now : Time) :
    Safe (ledgerRely application.id)
      (budgetOutline application.id (.register environment hostname reference fresh now))
      (fun _ => Accepted application.id (.register environment hostname reference fresh now))
      (claimDomain environment application hostname reference fresh now) ⟨[], id, db⟩ := by
  unfold claimDomain
  refine Safe.requireThen (fun _ => ?_) fun _ => budgetOutline_unlimited fun _ _ => by simp
  refine Safe.requireThen (fun _ => ?_) fun _ => budgetOutline_unlimited fun _ _ => by simp
  split
  next => exact Safe.of_raise (budgetOutline_unlimited fun _ _ => by simp)
  next canonical _ =>
    refine (lockApplication_deciding stored).bind fun _ moment deciding => ?_
    refine (deciding.within (enforce_ledger environment) (fun _ => trivial)
      budgetOutline_raise).bind fun _ moment deciding => ?_
    rw [enforceRegistrationLimit_eq]
    refine (deciding.count (.register environment hostname reference fresh now)
      (List.mem_singleton.mpr rfl)).bind fun _ moment deciding => ?_
    refine (deciding.toHolding.within (insertDomain_ledger _) (fun _ => trivial)
      budgetOutline_raise).bind fun conflict moment holding => ?_
    cases conflict with
    | some conflict =>
        cases conflict with
        | hostname => exact Safe.of_raise (budgetOutline_unlimited fun _ _ => by simp)
        | other => exact Safe.of_raise (budgetOutline_unlimited fun _ _ => by simp)
    | none =>
        refine (holding.within (insertChecks_ledger _) (fun _ => trivial)
          budgetOutline_raise).bind fun domain moment holding => ?_
        refine (recordEvent_safe holding domain _ now (fun _ => trivial)
          budgetOutline_raise).bind ?_
        rintro _ moment ⟨created, later, holding⟩
        have issues : Safe (ledgerRely application.id)
            (budgetOutline application.id (.register environment hostname reference fresh now))
            (fun _ => Accepted application.id
              (.register environment hostname reference fresh now))
            (issueClaim domain fresh.claimId fresh.token application.cnameTarget now) moment := by
          refine (holding.within (insertClaim_ledger _ _) (fun _ => trivial)
            budgetOutline_raise).bind fun _ moment holding => ?_
          refine (recordEvent_safe holding domain _ now (fun _ => trivial)
            budgetOutline_raise).bind ?_
          rintro _ moment ⟨issued, -, holding⟩
          refine Safe.of_pure fun db allows => ?_
          exact ⟨_, (holding.later allows).weaken fun ledger known =>
            .registration known.2 later _ _ _ _ _ _⟩
        refine issues.bind ?_
        rintro domain moment ⟨more, holding⟩
        exact (holding.within (refresh_ledger domain) (fun _ => trivial)
          budgetOutline_raise).weaken fun _ _ holding => ⟨more, holding⟩

theorem rechecksWindow_eq (applicationId : Uuid) (now : Time) :
    enforceWindow (fun event => decide (event.applicationId = applicationId) &&
        isRecheckRequested event.payload) recheckWindow recheckMaxPerWindow
      "At most 60 manual rechecks per application per 1 hour(s)" now =
      Budget.rechecks.enforce applicationId now := by
  have counts : (fun event : DomainEvent => decide (event.applicationId = applicationId) &&
      isRecheckRequested event.payload) = Budget.rechecks.countsEvent applicationId := rfl
  exact enforceWindow_eq .rechecks counts (fun _ => rfl) now

/-- Not too soon, and within the budget. -/
theorem enforceRecheckLimits_safe (domain : Domain) (requestedBy : String) (now : Time)
    (mine : domain.applicationId = application.id)
    (deciding : Deciding application.id (fun _ => True) moment) :
    Safe (ledgerRely application.id)
      (budgetOutline application.id (.recheck domain.id requestedBy now))
      (fun _ => Deciding application.id fun ledger =>
        (∀ last, (ledger.rechecksOf domain.id).max? = some last →
          last + recheckMinInterval ≤ now) ∧ Budget.rechecks.Room application.id now ledger)
      (enforceRecheckLimits domain now) moment := by
  unfold enforceRecheckLimits
  rw [rechecksWindow_eq]
  refine Safe.readThen fun db allows => ⟨trivial, ?_⟩
  have read := deciding.later allows
  have counted : ∀ moment, Deciding application.id (fun ledger =>
      ∀ last, (ledger.rechecksOf domain.id).max? = some last →
        last + recheckMinInterval ≤ now) moment → _ :=
    fun moment deciding => deciding.count (.recheck domain.id requestedBy now)
      (List.mem_singleton.mpr rfl)
  rw [mine]
  dsimp only
  split
  next last found =>
    have latest : ((moment.later db).committed.ledger.rechecksOf domain.id).max? = some last := by
      rw [← read.view_ledger]
      exact found
    refine Safe.requireThen (fun late => ?_) fun early db' allows' => ?_
    · refine counted _ { read with about := ?_ }
      intro other other?
      rw [latest] at other?
      cases other?
      exact late
    · rintro _ _ ⟨⟩
      have raised := read.later allows'
      refine ⟨.soon ?_ (not_le.mp early), raised.domains _, raised.view_ledger⟩
      rw [← latest]
      exact congrArg (fun ledger : Ledger => (ledger.rechecksOf domain.id).max?)
        (allows'.2 read.held)
  next found =>
    have latest : ((moment.later db).committed.ledger.rechecksOf domain.id).max? = none := by
      rw [← read.view_ledger]
      exact found
    refine counted _ { read with about := ?_ }
    intro last last?
    rw [latest] at last?
    cases last?

theorem requestRecheck_accepted {db : Database}
    (stored : (db.application? application.id).isSome = true) (domainId : Uuid)
    (requestedBy : String) (now : Time) :
    Safe (ledgerRely application.id)
      (budgetOutline application.id (.recheck domainId requestedBy now))
      (fun _ => Accepted application.id (.recheck domainId requestedBy now))
      (requestRecheck application domainId requestedBy now) ⟨[], id, db⟩ := by
  unfold requestRecheck
  refine (lockApplication_deciding stored).bind fun _ moment deciding => ?_
  refine (deciding.load _ domainId true).bind ?_
  rintro domain moment ⟨deciding, rfl, mine⟩
  refine Safe.requireThen (fun _ => ?_) fun _ => budgetOutline_unlimited fun _ _ => by simp
  refine (enforceRecheckLimits_safe domain requestedBy now mine deciding).bind
    fun _ moment deciding => ?_
  refine (Safe.foldEach (fun (scheduled : Domain) moment => Holding application.id .empty _ moment ∧
      scheduled.id = domain.id ∧ scheduled.applicationId = domain.applicationId)
    ⟨deciding.toHolding, rfl, rfl⟩ (fun _ _ _ holds allows => ⟨holds.1.later allows, holds.2⟩)
    fun scheduled check moment holds => ?_).bind ?_
  · refine (scheduleCheck_safe holds.1 scheduled check now (fun _ => trivial)
      budgetOutline_raise).weaken fun _ _ after => ?_
    exact ⟨after.1, after.2.1.trans holds.2.1, after.2.2.trans holds.2.2⟩
  · rintro scheduled moment ⟨holding, same, -⟩
    refine (recordEvent_safe holding scheduled _ now (fun _ => trivial)
      budgetOutline_raise).bind ?_
    rintro _ moment ⟨stamp, later, holding⟩
    rw [same] at holding
    refine Safe.of_pure fun db allows => ?_
    exact ⟨_, (holding.later allows).weaken fun ledger known =>
      .recheck known.2 known.1 later _ _⟩

theorem createSession_accepted {db : Database}
    (stored : (db.application? application.id).isSome = true) (environment : ConnectEnvironment)
    (hashToken : String → String) (ask : SessionRequest) (baseUrl : Option String)
    (sessionId : Uuid) (token : String) (now : Time) :
    Safe (ledgerRely application.id)
      (budgetOutline application.id
        (.openSession environment hashToken ask baseUrl sessionId token now))
      (fun _ => Accepted application.id
        (.openSession environment hashToken ask baseUrl sessionId token now))
      (createSession environment hashToken application ask baseUrl sessionId token now)
      ⟨[], id, db⟩ := by
  unfold createSession
  refine Safe.requireThen (fun _ => ?_) fun _ => budgetOutline_unlimited fun _ _ => by simp
  refine requireField_then ?_ fun _ => budgetOutline_unlimited fun _ _ => by simp
  refine requireField_then ?_ fun _ => budgetOutline_unlimited fun _ _ => by simp
  refine (lockApplication_deciding stored).bind fun _ moment deciding => ?_
  refine (deciding.load _ ask.domainId false).bind ?_
  rintro domain moment ⟨deciding, same, mine⟩
  cases baseUrl with
  | none => exact Safe.of_raise (budgetOutline_unlimited fun _ _ => by simp)
  | some baseUrl =>
      have counted : ∀ {budget about moment}, budget ∈
          (BudgetRequest.openSession environment hashToken ask (some baseUrl) sessionId token
            now).budgets → Deciding application.id about moment → _ :=
        fun member deciding => deciding.count _ member
      unfold enforceSessionLimits
      rw [mine, same]
      refine ((counted (List.mem_cons_self) deciding).bind fun _ moment deciding =>
        counted (List.mem_cons_of_mem _ List.mem_cons_self) deciding).bind
          fun _ moment deciding => ?_
      refine (insertSession_safe deciding.toHolding _ budgetOutline_raise).bind
        fun _ moment holding => Safe.of_pure fun db allows => ?_
      exact ⟨_, (holding.later allows).weaken fun ledger known =>
        .session rfl rfl known.1.2 known.2⟩

theorem BudgetRequest.safe {db : Database}
    (stored : (db.application? application.id).isSome = true) :
    Safe (ledgerRely application.id) (budgetOutline application.id request)
      (fun _ => Accepted application.id request) (request.program application) ⟨[], id, db⟩ := by
  have stable : ∀ (moment : Moment store) db, Accepted application.id request moment →
      (ledgerRely application.id).Allows moment.locks moment.committed db →
      Accepted application.id request (moment.later db) :=
    fun _ _ accepted allows => accepted.later allows
  cases request with
  | register environment hostname reference fresh now =>
      exact Safe.discard (claimDomain_accepted stored environment hostname reference fresh now)
        stable
  | recheck domainId requestedBy now =>
      exact Safe.discard (requestRecheck_accepted stored domainId requestedBy now) stable
  | openSession environment hashToken ask baseUrl id token now =>
      exact Safe.discard
        (createSession_accepted stored environment hashToken ask baseUrl id token now) stable

end Requests

/-! ## Requests that run together -/

section Runs

variable {ι : Type} {requests : ι → BudgetRequest} {application : Application}

/-- All requests are about to run. -/
def budgetStart (db : Database) (requests : ι → BudgetRequest) (application : Application) :
    State store ι Unit :=
  State.start db fun index => (requests index).program application

theorem accepted_guarantees (request : BudgetRequest) :
    State.Guarantees (ledgerRely application.id)
      (fun (_ : Unit) => Accepted application.id request) := by
  rintro _ moment ⟨more, holding⟩ locks disjoint
  exact ⟨holding.applications _, fun held => absurd held (disjoint _ holding.held)⟩

variable [DecidableEq ι] {db : Database} {state : State store ι Unit}

/-- In every run each request is safe to the end. -/
theorem requests_safeAt (stored : (db.application? application.id).isSome = true)
    (reaches : ReflTransGen State.Step (budgetStart db requests application) state) (index : ι) :
    State.SafeAt (ledgerRely application.id) (budgetOutline application.id (requests index))
      (fun _ => Accepted application.id (requests index)) state index := by
  have guarantees : ∀ index, State.Guarantees (ledgerRely application.id)
      (fun (_ : Unit) => Accepted application.id (requests index)) :=
    fun index => accepted_guarantees (requests index)
  have safe : ∀ index, State.SafeAt (ledgerRely application.id)
      (budgetOutline application.id (requests index))
      (fun _ => Accepted application.id (requests index))
      (budgetStart db requests application) index :=
    fun index => State.start_safeAt ((requests index).safe stored)
  have exclusive : (budgetStart db requests application).Exclusive := State.start_exclusive db _
  exact State.safeAt_of_reaches guarantees exclusive safe reaches index

/-- A step adds nothing, or what one request may add. -/
theorem ledger_step (stored : (db.application? application.id).isSome = true)
    (reaches : ReflTransGen State.Step (budgetStart db requests application) state)
    {next : State store ι Unit} (step : State.Step state next) :
    next.committed.ledger = state.committed.ledger ∨
      ∃ index more, (next.session index).status = .committed ∧
        (state.session index).status = .running ∧
        Row.application application.id ∈ (state.session index).locks ∧
        Allowed application.id (requests index).now more state.committed.ledger ∧
        next.committed.ledger = state.committed.ledger.add more := by
  obtain ⟨moved, ⟨enabled, rfl⟩ | ⟨_, rfl⟩⟩ := step
  · cases commits : (state.session moved).commits with
    | false =>
        rw [State.advance_committed_of_not_commits state moved commits]
        exact .inl rfl
    | true =>
        obtain ⟨value, shape, more, holding⟩ :=
          (requests_safeAt stored reaches moved).at_commit enabled.1 commits
        refine .inr ⟨moved, more, ?_, enabled.1, holding.held, holding.about, ?_⟩
        · rw [State.advance_session_self]
          unfold Session.execute
          rw [shape]
          rfl
        · rw [State.advance_committed_of_commits state moved commits]
          exact holding.ledger state.committed
  · exact .inl rfl

/-- No window ever has more than the budget. -/
theorem limitKept_of_reaches (stored : (db.application? application.id).isSome = true)
    (reaches : ReflTransGen State.Step (budgetStart db requests application) state)
    (budget : Budget)
    (capped : LimitKept budget.window budget.limit (budget.stamps application.id db.ledger)) :
    LimitKept budget.window budget.limit (budget.stamps application.id state.committed.ledger) := by
  induction reaches with
  | refl => exact capped
  | @tail state next reaches step ih =>
      rcases ledger_step stored reaches step with same | ⟨_, more, -, -, -, allowed, added⟩
      · rwa [same]
      · rw [added]
        exact (allowed.admits budget).limitKept ih

/-- The rechecks of a domain stay apart. -/
theorem apart_of_reaches (stored : (db.application? application.id).isSome = true)
    (reaches : ReflTransGen State.Step (budgetStart db requests application) state)
    (domainId : Uuid) (apart : Apart recheckMinInterval (db.ledger.rechecksOf domainId)) :
    Apart recheckMinInterval (state.committed.ledger.rechecksOf domainId) := by
  induction reaches with
  | refl => exact apart
  | @tail state next reaches step ih =>
      rcases ledger_step stored reaches step with same | ⟨_, more, -, -, -, allowed, added⟩
      · rwa [same]
      · rw [added]
        exact allowed.apart domainId ih

/-! ## The wait -/

theorem le_seconds_retryAfter (wait : Int) : wait ≤ seconds (retryAfter wait) := by
  unfold seconds retryAfter seconds
  omega

/-- The clock is not before the run was opened, nor before that of a request that
was accepted. -/
def Clocked (requests : ι → BudgetRequest) (opened : Time) (state : State store ι Unit)
    (clock : Time) : Prop :=
  opened ≤ clock ∧
    ∀ index, (state.session index).status = .committed → (requests index).now ≤ clock

/-- Clocks do not go backwards: a request runs only with such a clock. -/
def ClocksForward (requests : ι → BudgetRequest) (opened : Time) (state : State store ι Unit)
    (index : ι) : Prop :=
  Clocked requests opened state (requests index).now

/-- As of `clock`, no budget is overdrawn. -/
def InBudget (applicationId : Uuid) (clock : Time) (ledger : Ledger) : Prop :=
  ∀ budget : Budget, (since (budget.stamps applicationId ledger) (clock - budget.window)).length ≤
    budget.limit

theorem Clocked.before_step {opened clock : Time} {next : State store ι Unit}
    (step : State.Step state next) (clocked : Clocked requests opened next clock) :
    Clocked requests opened state clock := by
  refine ⟨clocked.1, fun index committed => clocked.2 index ?_⟩
  obtain ⟨moved, ⟨enabled, rfl⟩ | ⟨running, rfl⟩⟩ := step
  · by_cases same : index = moved
    · subst same
      have running := enabled.1
      rw [committed] at running
      cases running
    · rwa [State.advance_session_of_ne state moved same]
  · by_cases same : index = moved
    · subst same
      rw [committed] at running
      cases running
    · rwa [State.abort_session_of_ne state moved same]

/-- A request that commits ran with a clock in order. -/
theorem clocked_of_commit {opened : Time} {next : State store ι Unit} {index : ι}
    (step : State.GuardedStep (ClocksForward requests opened) state next)
    (running : (state.session index).status = .running)
    (committed : (next.session index).status = .committed) :
    Clocked requests opened state (requests index).now := by
  obtain ⟨moved, ⟨-, forward, rfl⟩ | ⟨-, rfl⟩⟩ := step
  · by_cases same : index = moved
    · subst same
      exact forward
    · rw [State.advance_session_of_ne state moved same, running] at committed
      cases committed
  · by_cases same : index = moved
    · subst same
      rw [State.abort_session_self] at committed
      cases committed
    · rw [State.abort_session_of_ne state moved same, running] at committed
      cases committed

/-- With clocks in order, a request never finds more than the budget. -/
theorem inBudget_of_reaches (stored : (db.application? application.id).isSome = true)
    {opened clock : Time} (within : InBudget application.id opened db.ledger)
    (reaches : ReflTransGen (State.GuardedStep (ClocksForward requests opened))
      (budgetStart db requests application) state)
    (clocked : Clocked requests opened state clock) :
    InBudget application.id clock state.committed.ledger := by
  induction reaches generalizing clock with
  | refl =>
      intro budget
      exact (since_anti (sub_le_sub_right clocked.1 _)).trans (within budget)
  | @tail state next reaches step ih =>
      have reached := State.GuardedStep.reaches reaches
      have plain : State.Step state next := by
        obtain ⟨index, ⟨enabled, -, moved⟩ | aborted⟩ := step
        · exact ⟨index, .inl ⟨enabled, moved⟩⟩
        · exact ⟨index, .inr aborted⟩
      intro budget
      rcases ledger_step stored reached plain with same |
        ⟨index, more, committed, running, -, allowed, added⟩
      · rw [same]
        exact ih (clocked.before_step plain) budget
      · rw [added]
        have counted := ih (clocked_of_commit step running committed) budget
        have after := (allowed.admits budget).counted le_rfl counted
        exact (since_anti (sub_le_sub_right (clocked.2 index committed) _)).trans after

/-- The budgets of a request have different messages. -/
theorem BudgetRequest.Repeats.budget_eq {first second : BudgetRequest}
    (repeats : first.Repeats second) {one two : Budget} (counted : one ∈ first.budgets)
    (counted' : two ∈ second.budgets) (same : one.message = two.message) : one = two := by
  cases repeats with
  | register =>
      rw [List.mem_singleton.mp counted, List.mem_singleton.mp counted']
  | recheck =>
      rw [List.mem_singleton.mp counted, List.mem_singleton.mp counted']
  | openSession =>
      simp only [BudgetRequest.budgets, List.mem_cons, List.not_mem_nil, or_false] at *
      rcases counted with rfl | rfl <;> rcases counted' with rfl | rfl
      · rfl
      · exact absurd same (by simp [Budget.message])
      · exact absurd same (by simp [Budget.message])
      · rfl

/-- After the wait, the same limit does not refuse the request again. -/
theorem Deferral.not_again {applicationId : Uuid} {first second : BudgetRequest}
    {message : String} {wait wait' : Int} {ledger : Ledger}
    (deferral : Deferral applicationId first message wait ledger)
    (within : InBudget applicationId first.now ledger) (repeats : first.Repeats second)
    (waited : first.now + seconds wait ≤ second.now) :
    ¬ Deferral applicationId second message wait' ledger := by
  intro again
  cases deferral with
  | @spent _ budget _ _ counted spent =>
      obtain ⟨-, oldest, found, rfl⟩ := spent
      have gone : oldest + budget.window ≤ second.now := by
        have enough := le_seconds_retryAfter (oldest + budget.window - first.now)
        exact (sub_le_iff_le_add'.mp enough).trans waited
      have room := room_after_oldest (within budget) found gone
      generalize said : budget.message = message at again
      cases again with
      | @spent _ other _ _ counted' spent' =>
          rw [← repeats.budget_eq counted counted' said] at spent'
          exact absurd spent'.1 (not_le.mpr room)
      | soon =>
          cases repeats with
          | recheck =>
              rw [List.mem_singleton.mp counted] at said
              exact absurd said (by decide)
  | @soon domainId requestedBy now last _ latest early =>
      have gone : last + recheckMinInterval ≤ second.now := by
        have enough := le_seconds_retryAfter (last + recheckMinInterval - now)
        exact (sub_le_iff_le_add'.mp enough).trans waited
      generalize said : recheckedMessage = message at again
      cases repeats with
      | recheck =>
          cases again with
          | spent counted' =>
              rw [List.mem_singleton.mp counted'] at said
              exact absurd said (by decide)
          | soon latest' early' =>
              rw [latest] at latest'
              cases latest'
              exact absurd gone (not_le.mpr early')

/-- Budgets counted under the lock are exact: windows are within them and rechecks
apart whatever the clocks, a request that is refused has written nothing, and with
clocks in order the wait it is told is enough. -/
theorem budgets_exact (stored : (db.application? application.id).isSome = true)
    (reaches : ReflTransGen State.Step (budgetStart db requests application) state) :
    (∀ budget : Budget,
      LimitKept budget.window budget.limit (budget.stamps application.id db.ledger) →
      LimitKept budget.window budget.limit (budget.stamps application.id state.committed.ledger)) ∧
    (∀ domainId, Apart recheckMinInterval (db.ledger.rechecksOf domainId) →
      Apart recheckMinInterval (state.committed.ledger.rechecksOf domainId)) ∧
    (∀ index error, state.Raises index error →
      (state.advance index).committed = state.committed ∧
      ∀ message wait, error = .rateLimited message wait →
        (state.view index).domains = state.committed.domains ∧
          (state.view index).ledger = state.committed.ledger) ∧
    ∀ opened, InBudget application.id opened db.ledger →
      ReflTransGen (State.GuardedStep (ClocksForward requests opened))
        (budgetStart db requests application) state →
      ∀ index message wait, state.Raises index (.rateLimited message wait) →
        ClocksForward requests opened state index →
      ∀ later, ReflTransGen State.Step state later →
        later.committed.ledger = state.committed.ledger →
      ∀ again, (requests index).Repeats (requests again) →
        (requests index).now + seconds wait ≤ (requests again).now →
        ∀ wait', ¬ later.Raises again (.rateLimited message wait') := by
  refine ⟨fun budget => limitKept_of_reaches stored reaches budget,
    fun domainId => apart_of_reaches stored reaches domainId, fun index error raises => ?_, ?_⟩
  · refine ⟨State.advance_committed_of_not_commits state index ?_, ?_⟩
    · unfold Session.commits
      rw [raises.2]
    · rintro message wait rfl
      exact ((requests_safeAt stored reaches index).raises raises message wait rfl).2
  · intro opened within inOrder index message wait raises forward later onward same again repeats
      waited wait' raises'
    have deferred := ((requests_safeAt stored reaches index).raises raises message wait rfl).1
    have deferred' := ((requests_safeAt stored (reaches.trans onward) again).raises raises'
      message wait' rfl).1
    have counted := inBudget_of_reaches stored within inOrder forward
    rw [show (later.moment again).committed.ledger = (state.moment index).committed.ledger from
      same] at deferred'
    exact deferred.not_again counted repeats waited deferred'

instance [Fintype ι] (requests : ι → BudgetRequest) (opened : Time) (state : State store ι Unit)
    (index : ι) : Decidable (ClocksForward requests opened state index) :=
  inferInstanceAs (Decidable (_ ∧ ∀ _, _ → _))

end Runs

/-! ## Three rechecks of one domain -/

/-- At 100, 130 and 160 seconds. -/
def threeRechecks : Fin 3 → BudgetRequest := fun index =>
  .recheck 7 "api" (seconds (100 + 30 * index))

/-- An application with one domain. -/
def oneDomain : Database where
  applications := [sampleApplication]
  domains :=
    [{ id := 7
       applicationId := 1
       hostname := "app.customer.com"
       reference := "w1"
       createdAt := 0
       updatedAt := 0 }]

/-- The first recheck has committed, and the second has looked at it. -/
def secondRecheck : State store (Fin 3) Unit :=
  (budgetStart oneDomain threeRechecks sampleApplication).follow
    [0, 0, 0, 0, 0, 0, 0, 0, 0, 1, 1, 1, 1, 1]

/-- The second is told to wait for 30 seconds, and then the third is not told to
wait for the same reason. -/
theorem budgets_exact_rechecks :
    (secondRecheck.session 0).status = .committed ∧
    secondRecheck.Raises 1 (.rateLimited recheckedMessage 30) ∧
      ∀ later, ReflTransGen State.Step secondRecheck later →
        later.committed.ledger = secondRecheck.committed.ledger →
        ∀ wait, ¬ later.Raises 2 (.rateLimited recheckedMessage wait) := by
  have forward : ReflTransGen (State.GuardedStep (ClocksForward threeRechecks 0))
      (budgetStart oneDomain threeRechecks sampleApplication) secondRecheck :=
    State.CanFollow.guarded (by decide +kernel)
  have raises : secondRecheck.Raises 1 (.rateLimited recheckedMessage 30) := ⟨by decide +kernel, rfl⟩
  refine ⟨by decide +kernel, raises, fun later onward same => ?_⟩
  have inBudget : InBudget sampleApplication.id 0 oneDomain.ledger :=
    fun budget => by simp [since, Budget.stamps, Database.ledger, oneDomain]
  exact (budgets_exact (by decide) (State.GuardedStep.reaches forward)).2.2.2 0 inBudget forward 1
    recheckedMessage 30 raises (by decide +kernel) later onward same 2 .recheck (by decide)

end CustomDomain
