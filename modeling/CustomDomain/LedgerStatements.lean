import CustomDomain.ConnectSessions
import CustomDomain.EdgeLocks

/-!
# Statements and what budgets count

Which statements leave the counted rows alone, what `record_event` adds to them,
and what a transaction that holds its application's row lock knows after it has
counted: as long as it holds the lock, no other transaction of the application
adds to the count.
-/

namespace CustomDomain

open Transaction SlidingWindow

namespace Ledger

def add (ledger more : Ledger) : Ledger :=
  ⟨ledger.events ++ more.events, ledger.sessions ++ more.sessions⟩

/-- Nothing. -/
def empty : Ledger := ⟨[], []⟩

@[simp] theorem add_empty (ledger : Ledger) : ledger.add empty = ledger := by
  simp [add, empty]

theorem add_assoc (first second third : Ledger) :
    (first.add second).add third = first.add (second.add third) := by
  simp [add, List.append_assoc]

end Ledger

/-- A change that leaves the applications and the counted rows alone. -/
structure KeepsLedger (change : Database → Database) : Prop where
  applications : ∀ db, (change db).applications = db.applications
  ledger : ∀ db, (change db).ledger = db.ledger

/-- Any error but a budget that is spent. -/
def Unlimited (error : ServiceError) : Prop :=
  ∀ message wait, error ≠ .rateLimited message wait

section Statements

theorem updateDomain_keepsLedger (id : Uuid) (change : Domain → Domain) :
    KeepsLedger fun db => db.updateDomain id change :=
  ⟨fun _ => rfl, fun _ => rfl⟩

theorem TouchesLocks.keepsLedger {change : Database → Database} (touches : TouchesLocks change) :
    KeepsLedger change where
  applications db := by
    obtain ⟨locks, changed⟩ := touches.rows db
    rw [changed]
  ledger db := by
    obtain ⟨locks, changed⟩ := touches.rows db
    rw [changed]
    rfl

theorem insertDomain_ledger (domain : Domain) :
    (insertDomain domain).Within KeepsLedger Unlimited := by
  refine fun view => ⟨?_, trivial⟩
  dsimp only
  split
  next => exact ⟨fun _ => rfl, fun _ => rfl⟩
  next => exact ⟨fun _ => rfl, fun _ => rfl⟩

theorem insertCheck_ledger (domainId : Uuid) (check : DomainCheck) :
    (insertCheck domainId check).Within KeepsLedger Unlimited := by
  refine fun view => ⟨updateDomain_keepsLedger _ _, ?_⟩
  dsimp only
  split
  next => exact fun _ _ => by simp
  next =>
    split
    next => exact fun _ _ => by simp
    next => exact trivial

theorem insertChecks_ledger (domain : Domain) :
    (Program.foldEach CheckType.all domain fun domain checkType => do
      insertCheck domain.id { checkType := checkType }
      pure (domain.addCheck { checkType := checkType }) : Sql Domain).Within KeepsLedger
        Unlimited :=
  .foldEach fun _ _ => (insertCheck_ledger _ _).bind fun _ => trivial

theorem insertClaim_ledger (domainId : Uuid) (claim : OwnershipClaim) :
    (insertClaim domainId claim).Within KeepsLedger Unlimited := by
  refine fun view => ⟨updateDomain_keepsLedger _ _, ?_⟩
  dsimp only
  split_ifs
  · exact fun _ _ => by simp
  · exact fun _ _ => by simp
  · exact trivial
  · exact fun _ _ => by simp

theorem flushCheck_ledger (domainId : Uuid) (before after : DomainCheck) :
    (flushCheck domainId before after).Within KeepsLedger Unlimited := by
  unfold flushCheck
  split
  next => exact trivial
  next =>
    refine fun view => ⟨updateDomain_keepsLedger _ _, ?_⟩
    dsimp only
    split
    next => exact trivial
    next => exact fun _ _ => by simp

theorem flushDomain_ledger (before after : Domain) :
    (flushDomain before after).Within KeepsLedger Unlimited := by
  unfold flushDomain
  split
  next => exact trivial
  next =>
    refine fun view => ⟨updateDomain_keepsLedger _ _, ?_⟩
    dsimp only
    split
    next => exact trivial
    next => exact fun _ _ => by simp

theorem selectDomain_ledger {change : (Database → Database) → Prop}
    {error : ServiceError → Prop} (query : Database → Option Domain) :
    (selectDomain query).Within change error := by
  intro view
  dsimp only
  split
  next => exact trivial
  next => exact fun _ _ => trivial

theorem refresh_ledger (domain : Domain) : (refresh domain).Within KeepsLedger Unlimited := by
  refine (selectDomain_ledger _).bind fun found => ?_
  cases found with
  | none => exact fun _ _ => by simp
  | some loaded => exact trivial

theorem enqueueForEvent_ledger (domain : Domain) (event : DomainEvent) :
    (enqueueForEvent domain event).Within KeepsLedger Unlimited := by
  unfold enqueueForEvent
  split
  next => exact trivial
  next =>
    intro view
    dsimp only
    split
    next => exact trivial
    next => exact fun _ => ⟨⟨fun _ => rfl, fun _ => rfl⟩, trivial⟩

end Statements

/-! ## Under the application's row lock -/

/-- While a transaction holds the application's row, the others leave the counted
rows alone.  Applications stay as they are. -/
def ledgerRely (applicationId : Uuid) : Rely store where
  Allows locks before after := after.applications = before.applications ∧
    (Row.application applicationId ∈ locks → after.ledger = before.ledger)
  refl _ _ := ⟨rfl, fun _ => rfl⟩
  trans first second :=
    ⟨second.1.trans first.1, fun held => (second.2 held).trans (first.2 held)⟩
  mono allows := ⟨allows.1, fun held => allows.2 (List.mem_append_left _ held)⟩

/-- The transaction holds the row, its pending changes add `more` to the counted
rows, and `about` holds of those that are committed. -/
structure Holding (applicationId : Uuid) (more : Ledger) (about : Ledger → Prop)
    (moment : Moment store) : Prop where
  held : Row.application applicationId ∈ moment.locks
  applications : ∀ db, (moment.pending db).applications = db.applications
  ledger : ∀ db, (moment.pending db).ledger = db.ledger.add more
  about : about moment.committed.ledger

namespace Holding

variable {applicationId : Uuid} {more : Ledger} {about : Ledger → Prop} {moment : Moment store}

theorem later (holding : Holding applicationId more about moment) {db : Database}
    (allows : (ledgerRely applicationId).Allows moment.locks moment.committed db) :
    Holding applicationId more about (moment.later db) :=
  { holding with
    about := by
      change about db.ledger
      rw [allows.2 holding.held]
      exact holding.about }

theorem written (holding : Holding applicationId more about moment) {rows : Database → List Row}
    {change : Database → Database → Database} (keeps : KeepsLedger (change moment.view)) :
    Holding applicationId more about (moment.written rows change) where
  held := List.mem_append_left _ holding.held
  applications db := (keeps.applications _).trans (holding.applications db)
  ledger db := (keeps.ledger _).trans (holding.ledger db)
  about := holding.about

theorem view_ledger (holding : Holding applicationId .empty about moment) :
    moment.view.ledger = moment.committed.ledger := by
  rw [Moment.view, holding.ledger, Ledger.add_empty]

theorem weaken {about' : Ledger → Prop} (holding : Holding applicationId more about moment)
    (implies : ∀ ledger, about ledger → about' ledger) :
    Holding applicationId more about' moment :=
  { holding with about := implies _ holding.about }

/-- Statements that count for nothing. -/
theorem within {α : Type} {program : Sql α} {outline : Outline store}
    (holding : Holding applicationId more about moment)
    (keeps : program.Within KeepsLedger Unlimited)
    (select : ∀ moment, outline.select moment)
    (raise : ∀ error moment, Unlimited error → outline.raise error moment) :
    Safe (ledgerRely applicationId) outline (fun _ => Holding applicationId more about) program
      moment :=
  keeps.safe (Holding applicationId more about) (fun _ _ holding allows => holding.later allows)
    (fun _ _ _ holding keeps => holding.written keeps) (fun moment _ => select moment)
    (fun error moment _ unlimited => raise error moment unlimited) (fun _ _ holding => holding)
    holding

end Holding

/-- Setting the time of one check. -/
theorem scheduleCheck_safe {applicationId : Uuid} {more : Ledger} {about : Ledger → Prop}
    {moment : Moment store} {outline : Outline store}
    (holding : Holding applicationId more about moment) (domain : Domain) (check : DomainCheck)
    (at_ : Time) (select : ∀ moment, outline.select moment)
    (raise : ∀ error moment, Unlimited error → outline.raise error moment) :
    Safe (ledgerRely applicationId) outline
      (fun after moment => Holding applicationId more about moment ∧ after.id = domain.id ∧
        after.applicationId = domain.applicationId)
      (scheduleCheck domain check at_) moment := by
  refine (holding.within (flushCheck_ledger _ _ _) select raise).bind fun _ moment holding => ?_
  exact Safe.of_pure fun _ allows => ⟨holding.later allows, rfl, rfl⟩

/-- The rows that one event adds. -/
def Ledger.event (event : DomainEvent) : Ledger := ⟨[event], []⟩

/-- `record_event` adds an event that is not stamped before `now`. -/
theorem recordEvent_safe {applicationId : Uuid} {more : Ledger} {about : Ledger → Prop}
    {moment : Moment store} {outline : Outline store}
    (holding : Holding applicationId more about moment) (domain : Domain) (payload : EventPayload)
    (now : Time) (select : ∀ moment, outline.select moment)
    (raise : ∀ error moment, Unlimited error → outline.raise error moment) :
    Safe (ledgerRely applicationId) outline
      (fun _ moment => ∃ stamp, now ≤ stamp ∧ Holding applicationId
        (more.add (.event ⟨domain.id, domain.applicationId, payload, stamp⟩)) about moment)
      (recordEvent domain payload now) moment := by
  refine Safe.of_select fun db allows => ⟨select _, ?_⟩
  refine Safe.of_write fun db' allows' => ?_
  have holding' := (holding.later allows).later allows'
  have added : ∀ stamp, Holding applicationId
      (more.add (.event ⟨domain.id, domain.applicationId, payload, stamp⟩)) about
      (((moment.later db).later db').written (fun _ => []) fun _ db =>
        { db with events := db.events ++ [⟨domain.id, domain.applicationId, payload, stamp⟩] }) :=
    fun stamp =>
      { held := List.mem_append_left _ holding'.held
        applications := holding'.applications
        ledger := fun db => by
          have grown := holding'.ledger db
          simp only [Database.ledger, Ledger.add, Ledger.mk.injEq] at grown
          simp only [Moment.written, Function.comp, Database.ledger, Ledger.add, Ledger.event,
            grown.1, grown.2, List.append_assoc, List.append_nil]
        about := holding'.about }
  refine ((added _).within (enqueueForEvent_ledger domain _) select raise).weaken ?_
  refine fun _ _ holding => ⟨_, ?_, holding⟩
  -- The stamp is the clock, or one microsecond after a later event.
  split
  next last _ =>
    split
    next early => exact early.trans (Int.le_add_one le_rfl)
    next => exact le_rfl
  next => exact le_rfl

theorem insertSession_safe {applicationId : Uuid} {about : Ledger → Prop}
    {moment : Moment store} {outline : Outline store}
    (holding : Holding applicationId .empty about moment) (session : ConnectSession)
    (raise : ∀ error moment, Unlimited error → outline.raise error moment) :
    Safe (ledgerRely applicationId) outline
      (fun _ => Holding applicationId ⟨[], [session]⟩ about) (insertSession session) moment := by
  refine Safe.of_write fun db allows => ?_
  have before := holding.later allows
  have added : Holding applicationId ⟨[], [session]⟩ about
      ((moment.later db).written (fun _ => [.connectSession session.id, .tokenHash session.tokenHash])
        fun _ db => { db with connectSessions := db.connectSessions ++ [session] }) :=
    { held := List.mem_append_left _ before.held
      applications := before.applications
      ledger := fun db => by
        have grown := before.ledger db
        simp only [Database.ledger, Ledger.add, Ledger.empty, Ledger.mk.injEq] at grown
        simp only [Moment.written, Function.comp, Database.ledger, Ledger.add, grown.1, grown.2,
          List.append_nil]
      about := before.about }
  dsimp only
  split_ifs
  · exact Safe.of_raise fun _ _ => raise _ _ fun _ _ => by simp
  · exact Safe.of_raise fun _ _ => raise _ _ fun _ _ => by simp
  · exact Safe.of_pure fun _ allows => added.later allows

/-! ## Counting -/

namespace Budget

variable {applicationId : Uuid} {budget : Budget} {now : Time}

/-- There is room for one more. -/
def Room (applicationId : Uuid) (budget : Budget) (now : Time) (ledger : Ledger) : Prop :=
  (since (budget.stamps applicationId ledger) (now - budget.window)).length < budget.limit

/-- There is none, and this is the wait that is answered. -/
def Spent (applicationId : Uuid) (budget : Budget) (now : Time) (wait : Int) (ledger : Ledger) :
    Prop :=
  budget.limit ≤ (since (budget.stamps applicationId ledger) (now - budget.window)).length ∧
    ∃ oldest, (since (budget.stamps applicationId ledger) (now - budget.window)).min? =
      some oldest ∧ wait = retryAfter (oldest + budget.window - now)

/-- A count that nobody disturbs: there is room, or the request is refused. -/
theorem enforce_safe {rely : Rely store} {outline : Outline store} {moment : Moment store}
    (before : Moment store → Prop) (start : before moment)
    (stable : ∀ moment db, before moment → rely.Allows moment.locks moment.committed db →
      before (moment.later db) ∧ (moment.later db).view.ledger = moment.view.ledger)
    (select : ∀ moment, outline.select moment)
    (refused : ∀ moment wait, before moment →
      budget.Spent applicationId now wait moment.view.ledger →
        outline.raise (.rateLimited budget.message wait) moment) :
    Safe rely outline
      (fun _ moment => before moment ∧ budget.Room applicationId now moment.view.ledger)
      (budget.enforce applicationId now) moment := by
  refine Safe.readThen fun db allows => ⟨select _, ?_⟩
  have now' := (stable moment db start allows).1
  split
  next full =>
    refine Safe.readThen fun db' allows' => ⟨select _, Safe.of_raise fun last allows'' => ?_⟩
    have second := stable _ db' now' allows'
    have third := stable _ last second.1 allows''
    refine refused _ _ third.1 ?_
    rw [third.2, second.2]
    unfold Spent
    refine ⟨full, ?_⟩
    cases found : (since (budget.stamps applicationId (moment.later db).view.ledger)
        (now - budget.window)).min? with
    | none =>
        rw [List.min?_eq_none_iff.mp found] at full
        exact absurd full (Nat.not_le.mpr budget.limit_pos)
    | some oldest => exact ⟨oldest, rfl, rfl⟩
  next room =>
    refine Safe.of_pure fun db' allows' => ?_
    have last := stable _ db' now' allows'
    refine ⟨last.1, ?_⟩
    unfold Room
    rw [last.2]
    exact Nat.not_le.mp room

end Budget

/-! ## Before the first write -/

/-- The transaction holds the application's row and has touched nothing but lock
rows. -/
structure Deciding (applicationId : Uuid) (about : Ledger → Prop) (moment : Moment store) : Prop
    extends Holding applicationId .empty about moment where
  domains : ∀ db, (moment.pending db).domains = db.domains

namespace Deciding

variable {applicationId : Uuid} {about : Ledger → Prop} {moment : Moment store}
  {outline : Outline store}

theorem later (deciding : Deciding applicationId about moment) {db : Database}
    (allows : (ledgerRely applicationId).Allows moment.locks moment.committed db) :
    Deciding applicationId about (moment.later db) :=
  { deciding with toHolding := deciding.toHolding.later allows }

theorem learn {about' : Ledger → Prop} (deciding : Deciding applicationId about moment)
    (holds : about' moment.committed.ledger) :
    Deciding applicationId (fun ledger => about ledger ∧ about' ledger) moment :=
  { deciding with about := ⟨deciding.about, holds⟩ }

theorem within {α : Type} {program : Sql α} (deciding : Deciding applicationId about moment)
    (touches : program.Within TouchesLocks Unlimited) (select : ∀ moment, outline.select moment)
    (raise : ∀ error moment, Unlimited error → outline.raise error moment) :
    Safe (ledgerRely applicationId) outline (fun _ => Deciding applicationId about) program
      moment := by
  refine touches.safe (Deciding applicationId about) (fun _ _ deciding allows => deciding.later allows)
    (fun moment _ change deciding touches => ?_) (fun moment _ => select moment)
    (fun error moment _ unlimited => raise error moment unlimited) (fun _ _ deciding => deciding)
    deciding
  refine ⟨deciding.toHolding.written touches.keepsLedger, fun db => ?_⟩
  obtain ⟨locks, changed⟩ := touches.rows (moment.pending db)
  change (change moment.view (moment.pending db)).domains = db.domains
  rw [changed]
  exact deciding.domains db

/-- A count under the lock. -/
theorem enforce {budget : Budget} {now : Time} (counted : Uuid)
    (deciding : Deciding applicationId about moment) (select : ∀ moment, outline.select moment)
    (refused : ∀ moment wait, Deciding applicationId about moment →
      budget.Spent counted now wait moment.committed.ledger →
        outline.raise (.rateLimited budget.message wait) moment) :
    Safe (ledgerRely applicationId) outline
      (fun _ => Deciding applicationId fun ledger =>
        about ledger ∧ budget.Room counted now ledger)
      (budget.enforce counted now) moment := by
  refine (Budget.enforce_safe (Deciding applicationId about) deciding ?_ select ?_).weaken ?_
  · intro moment db deciding allows
    refine ⟨deciding.later allows, ?_⟩
    rw [(deciding.later allows).view_ledger, deciding.view_ledger]
    exact allows.2 deciding.held
  · intro moment wait deciding spent
    rw [deciding.view_ledger] at spent
    exact refused moment wait deciding spent
  · rintro _ moment ⟨deciding, room⟩
    rw [deciding.view_ledger] at room
    exact deciding.learn room

end Deciding

/-- The lock is the first statement of the transaction. -/
theorem lockApplication_deciding {applicationId : Uuid} {outline : Outline store} {db : Database}
    (stored : (db.application? applicationId).isSome = true) :
    Safe (ledgerRely applicationId) outline
      (fun _ => Deciding applicationId fun _ => True) (lockApplication applicationId)
      ⟨[], id, db⟩ := by
  refine Safe.of_write fun db' allows => Safe.of_pure fun db'' allows' => ?_
  have present : (db'.application? applicationId).isSome = true := by
    unfold Database.application? at *
    rwa [allows.1]
  refine Deciding.later ⟨⟨?_, fun _ => rfl, fun db => (Ledger.add_empty _).symm, trivial⟩,
    fun _ => rfl⟩ allows'
  change Row.application applicationId ∈ [] ++
    (if (db'.application? applicationId).isSome then [Row.application applicationId] else [])
  rw [if_pos present]
  exact List.mem_singleton.mpr rfl

/-- An optional field of a request. -/
theorem requireField_then {α : Type} {rely : Rely store} {outline : Outline store}
    {moment : Moment store} {post : α → Moment store → Prop} {rest : Unit → Sql α}
    {field : String} {problem : String → Option String} {value : Option String}
    (met : Safe rely outline post (rest ()) moment)
    (refused : ∀ message, rely.Always moment
      (outline.raise (.invalidConnectRequest message field))) :
    Safe rely outline post (requireField field problem value >>= rest) moment := by
  unfold requireField
  split
  next => exact met
  next =>
    split
    next => exact met
    next => exact Safe.of_raise (refused _)

section Loading

variable {rely : Rely store} {outline : Outline store} {moment : Moment store}
  (before : Moment store → Prop) (start : before moment)
  (stable : ∀ moment db, before moment → rely.Allows moment.locks moment.committed db →
    before (moment.later db))
  (select : ∀ moment, outline.select moment)

include start stable select

/-- What is loaded has the key and the owner of a row that was found. -/
theorem selectDomain_safe (query : Database → Option Domain) :
    Safe rely outline
      (fun found moment => before moment ∧ ∀ loaded, found = some loaded →
        ∃ view row, query view = some row ∧ loaded.domain.id = row.id ∧
          loaded.domain.applicationId = row.applicationId)
      (selectDomain query) moment := by
  refine Safe.of_select fun db allows => ⟨select _, ?_⟩
  have first := stable moment db start allows
  dsimp only
  split
  next => exact Safe.of_pure fun db allows => ⟨stable _ db first allows, by simp⟩
  next row found =>
    refine Safe.of_select fun db' allows => ⟨select _, ?_⟩
    have second := stable _ db' first allows
    refine Safe.of_select fun db' allows => ⟨select _, Safe.of_pure fun last allows' => ?_⟩
    refine ⟨stable _ last (stable _ db' second allows) allows', ?_⟩
    rintro _ ⟨⟩
    exact ⟨_, row, found, rfl, rfl⟩

/-- `get_domain` finds a domain of the application under that identifier. -/
theorem getDomain_safe (raise : ∀ moment, before moment → outline.raise .domainNotFound moment)
    (application : Application) (domainId : Uuid) (includeDeleted : Bool) :
    Safe rely outline
      (fun domain moment => before moment ∧ domain.id = domainId ∧
        domain.applicationId = application.id)
      (getDomain application domainId includeDeleted) moment := by
  refine (selectDomain_safe before start stable select _).bind ?_
  rintro found moment ⟨holds, loads⟩
  cases found with
  | none => exact Safe.of_raise fun db allows => raise _ (stable _ db holds allows)
  | some loaded =>
      obtain ⟨view, row, found, id, application⟩ := loads loaded rfl
      obtain ⟨known, mine⟩ := Option.filter_eq_some_iff.mp found
      have key : row.id = domainId := by
        simpa using List.find?_some (known : view.domains.find? _ = some row)
      simp only [Bool.and_eq_true, decide_eq_true_eq] at mine
      refine Safe.of_pure fun db allows => ?_
      exact ⟨stable _ db holds allows, id.trans key, application.trans mine.1⟩

end Loading

end CustomDomain
