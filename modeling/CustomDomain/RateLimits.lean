import CustomDomain.DomainService
import CustomDomain.SlidingWindow
import Mathlib.Algebra.Order.Group.Int

/-!
# Budgets per hour

The limits that `_enforce_registration_limit`, `_enforce_recheck_limits` and the
two `_enforce_limits` of the connect modules count from stored rows.  All of
them count rows after `now - window`, refuse when the budget is reached, and
answer with the time until the oldest counted row leaves the window.
-/

namespace CustomDomain

open Transaction SlidingWindow

/-- The rows that budgets are counted from. -/
structure Ledger where
  events : List DomainEvent
  sessions : List ConnectSession

def Database.ledger (db : Database) : Ledger := ⟨db.events, db.connectSessions⟩

/-- One limit: what it counts and for whom. -/
inductive Budget where
  | registrations
  | rechecks
  | sessionsOfDomain (domainId : Uuid)
  | sessions
  | linksOfDomain (domainId : Uuid)
  | links
  deriving DecidableEq

def isConnectUrlIssued : EventPayload → Bool
  | .connectUrlIssued _ _ => true
  | _ => false

/-- `DOMAIN_MAX_PER_WINDOW` of `connect_sessions.py`. -/
def sessionsMaxPerDomain : Nat := 20

/-- `APPLICATION_MAX_PER_WINDOW` of `connect_sessions.py`. -/
def sessionsMaxPerApplication : Nat := 600

/-- `DOMAIN_MAX_PER_WINDOW` of `domain_connect.py`. -/
def linksMaxPerDomain : Nat := 10

/-- `APPLICATION_MAX_PER_WINDOW` of `domain_connect.py`. -/
def linksMaxPerApplication : Nat := 120

/-- `WINDOW`, `DOMAIN_WINDOW` and `APPLICATION_WINDOW` of the connect modules. -/
def connectWindow : Time := hours 1

namespace Budget

def window : Budget → Time
  | .registrations => registrationWindow
  | .rechecks => recheckWindow
  | _ => connectWindow

def limit : Budget → Nat
  | .registrations => registrationMaxPerWindow
  | .rechecks => recheckMaxPerWindow
  | .sessionsOfDomain _ => sessionsMaxPerDomain
  | .sessions => sessionsMaxPerApplication
  | .linksOfDomain _ => linksMaxPerDomain
  | .links => linksMaxPerApplication

def message : Budget → String
  | .registrations => "At most 120 registrations per application per 1 hour(s)"
  | .rechecks => "At most 60 manual rechecks per application per 1 hour(s)"
  | .sessionsOfDomain _ => "At most 20 connect sessions per domain per hour"
  | .sessions => "At most 600 connect sessions per application per hour"
  | .linksOfDomain _ => "At most 10 Domain Connect links per domain per hour"
  | .links => "At most 120 Domain Connect links per application per hour"

/-- The events the budget counts. -/
def countsEvent (applicationId : Uuid) : Budget → DomainEvent → Bool
  | .registrations, event =>
      decide (event.applicationId = applicationId) && isDomainCreated event.payload
  | .rechecks, event =>
      decide (event.applicationId = applicationId) && isRecheckRequested event.payload
  | .linksOfDomain domainId, event =>
      decide (event.domainId = domainId) && isConnectUrlIssued event.payload
  | .links, event =>
      decide (event.applicationId = applicationId) && isConnectUrlIssued event.payload
  | _, _ => false

/-- The connect sessions the budget counts. -/
def countsSession (applicationId : Uuid) : Budget → ConnectSession → Bool
  | .sessionsOfDomain domainId, session => decide (session.domainId = domainId)
  | .sessions, session => decide (session.applicationId = applicationId)
  | _, _ => false

/-- The `created_at` of what it counts. -/
def stamps (applicationId : Uuid) (budget : Budget) (ledger : Ledger) : List Time :=
  (ledger.events.filter (budget.countsEvent applicationId)).map (·.createdAt) ++
    (ledger.sessions.filter (budget.countsSession applicationId)).map (·.createdAt)

/-- Count, and refuse when the budget is spent. -/
def enforce (applicationId : Uuid) (budget : Budget) (now : Time) : Sql Unit := do
  let count ← .read fun view =>
    (since (budget.stamps applicationId view.ledger) (now - budget.window)).length
  if budget.limit ≤ count then
    let oldest ← .read fun view =>
      (since (budget.stamps applicationId view.ledger) (now - budget.window)).min?
    .raise (.rateLimited budget.message (retryAfter
      (match oldest with
        | some oldest => oldest + budget.window - now
        | none => seconds 60)))
  else
    pure ()

theorem limit_pos (budget : Budget) : 0 < budget.limit := by
  cases budget with
  | registrations => decide
  | rechecks => decide
  | sessionsOfDomain => exact Nat.succ_pos 19
  | sessions => decide
  | linksOfDomain => exact Nat.succ_pos 9
  | links => decide

end Budget

/-- A limit that counts events, in the two notations. -/
theorem enforceWindow_eq {applicationId : Uuid} (budget : Budget) {counts : DomainEvent → Bool}
    (events : counts = budget.countsEvent applicationId)
    (sessions : ∀ session, budget.countsSession applicationId session = false) (now : Time) :
    enforceWindow counts budget.window budget.limit budget.message now =
      budget.enforce applicationId now := by
  have stamps : ∀ view : Database, eventsSince view counts (now - budget.window) =
      since (budget.stamps applicationId view.ledger) (now - budget.window) := by
    intro view
    have none : view.ledger.sessions.filter (budget.countsSession applicationId) = [] :=
      List.filter_eq_nil_iff.mpr fun session _ => by simp [sessions session]
    unfold eventsSince Budget.stamps since
    rw [events, none, List.map_nil, List.append_nil, List.filter_map, List.filter_filter]
    congr 2
    funext event
    exact Bool.and_comm _ _
  have counted : (fun view : Database => (eventsSince view counts (now - budget.window)).length) =
      fun view =>
        (since (budget.stamps applicationId view.ledger) (now - budget.window)).length :=
    funext fun view => congrArg List.length (stamps view)
  have oldest : (fun view : Database => (eventsSince view counts (now - budget.window)).min?) =
      fun view => (since (budget.stamps applicationId view.ledger) (now - budget.window)).min? :=
    funext fun view => congrArg List.min? (stamps view)
  rw [enforceWindow, counted, oldest]
  rfl

theorem enforceRegistrationLimit_eq (application : Application) (now : Time) :
    enforceRegistrationLimit application now =
      Budget.registrations.enforce application.id now := by
  have counts : (fun event : DomainEvent => decide (event.applicationId = application.id) &&
      isDomainCreated event.payload) = Budget.registrations.countsEvent application.id := rfl
  exact enforceWindow_eq .registrations counts (fun _ => rfl) now

end CustomDomain
