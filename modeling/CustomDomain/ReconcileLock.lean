import CustomDomain.GuardedRuns
import Mathlib.Logic.Function.Basic
import Mathlib.Tactic.Common

/-!
# The lock of the reconcilers

`app/edge/lock.py` and `Reconciler._run`: any number of instances take the `reconcile` row of
`edge_locks`, read the rows, write to Caddy and commit, statement by statement, among transactions that
commit changes of the rows.  An `UPDATE` sees and locks committed rows only, an `INSERT` waits for the
transaction that has inserted the same key, and every statement of `build_apps` reads the rows as they
are committed then.
-/

namespace CustomDomain.ReconcileLock

open GuardedRuns

variable {ι ρ : Type} [DecidableEq ι]

/-- The rows one statement has read, and the number of changes that were committed before it. -/
structure Snapshot (ρ : Type) where
  version : Nat
  rows : ρ

/-- A run that has the lock: which acquisition it was, after how many changes, and what the run has
read since. -/
structure Hold (ρ : Type) where
  ticket : Nat
  since : Nat
  reads : List (Snapshot ρ)

inductive Stage (ρ : Type) where
  | idle
  /-- At the first `UPDATE` of `acquire_lock`. -/
  | updating
  /-- At its `INSERT`. -/
  | inserting
  /-- At its second `UPDATE`. -/
  | again
  /-- `build_apps`. -/
  | building (hold : Hold ρ)
  /-- `_read_traffic` and `_apply`. -/
  | applying (hold : Hold ρ)
  | finished (hold : Hold ρ)

def Stage.hold : Stage ρ → Option (Hold ρ)
  | .building hold | .applying hold | .finished hold => some hold
  | _ => none

structure State (ι ρ : Type) where
  rows : ρ
  /-- The changes committed so far. -/
  version : Nat
  /-- A committed lock row is there. -/
  seeded : Bool
  /-- The transaction whose inserted lock row is not committed. -/
  inserted : Option ι
  /-- The transaction that keeps the lock row. -/
  holder : Option ι
  stage : ι → Stage ρ
  acquisitions : Nat
  /-- What Caddy has been given, the newest first. -/
  applied : List (Hold ρ)

inductive Action (ι ρ : Type) where
  /-- Another transaction commits. -/
  | change (rows : ρ)
  | start (run : ι)
  | update (run : ι)
  | insert (run : ι)
  | updateAgain (run : ι)
  /-- A statement of `build_apps`. -/
  | read (run : ι)
  | built (run : ι)
  /-- `build_apps` raises, or the instance dies: the transaction is rolled back. -/
  | rollback (run : ι)
  /-- The configuration reaches Caddy. -/
  | write (run : ι)
  /-- It does not: nothing is to be changed, or Caddy refuses or is not reached. -/
  | skip (run : ι)
  | commit (run : ι)

def State.set (state : State ι ρ) (run : ι) (stage : Stage ρ) : State ι ρ :=
  { state with stage := Function.update state.stage run stage }

/-- `acquire_lock` returns with the row. -/
def State.acquire (state : State ι ρ) (run : ι) : State ι ρ :=
  { state.set run (.building ⟨state.acquisitions, state.version, []⟩) with
    holder := some run, acquisitions := state.acquisitions + 1 }

/-- The end of a transaction; the lock row it inserted stays if it is committed. -/
def State.release (state : State ι ρ) (run : ι) (committed : Bool) : State ι ρ :=
  { state.set run .idle with
    seeded := state.seeded || (committed && decide (state.inserted = some run))
    inserted := if state.inserted = some run then none else state.inserted
    holder := if state.holder = some run then none else state.holder }

def perform (state : State ι ρ) : Action ι ρ → Option (State ι ρ)
  | .change rows => some { state with rows := rows, version := state.version + 1 }
  | .start run =>
      match state.stage run with
      | .idle => some (state.set run .updating)
      | _ => none
  | .update run =>
      match state.stage run with
      | .updating =>
          if state.seeded then
            -- waits for the transaction that keeps the row
            if state.holder = none then some (state.acquire run) else none
          else some (state.set run .inserting)
      | _ => none
  | .insert run =>
      match state.stage run with
      | .inserting =>
          if state.inserted ≠ none then none
          else if state.seeded then some (state.set run .again)
          else some { state.set run .again with inserted := some run, holder := some run }
      | _ => none
  | .updateAgain run =>
      match state.stage run with
      | .again =>
          if state.inserted = some run then some (state.acquire run)
          else if state.seeded then
            if state.holder = none then some (state.acquire run) else none
          -- no row is found, and the function returns without one
          else some (state.set run (.building ⟨state.acquisitions, state.version, []⟩))
      | _ => none
  | .read run =>
      match state.stage run with
      | .building hold =>
          some (state.set run
            (.building { hold with reads := hold.reads ++ [⟨state.version, state.rows⟩] }))
      | _ => none
  | .built run =>
      match state.stage run with
      | .building hold => some (state.set run (.applying hold))
      | _ => none
  | .rollback run =>
      match state.stage run with
      | .idle => none
      | _ => some (state.release run false)
  | .write run =>
      match state.stage run with
      | .applying hold =>
          some { state.set run (.finished hold) with applied := hold :: state.applied }
      | _ => none
  | .skip run =>
      match state.stage run with
      | .applying hold => some (state.set run (.finished hold))
      | _ => none
  | .commit run =>
      match state.stage run with
      | .finished _ => some (state.release run true)
      | _ => none

/-- Nobody is at work, and the row may be there or not. -/
def State.initial (rows : ρ) (seeded : Bool) : State ι ρ where
  rows := rows
  version := 0
  seeded := seeded
  inserted := none
  holder := none
  stage _ := .idle
  acquisitions := 0
  applied := []

/-! ## The lock is exclusive -/

/-- The configuration is not written yet. -/
def Stage.unwritten : Stage ρ → Option (Hold ρ)
  | .building hold | .applying hold => some hold
  | _ => none

theorem Stage.hold_of_unwritten {stage : Stage ρ} {hold : Hold ρ}
    (unwritten : stage.unwritten = some hold) : stage.hold = some hold := by
  cases stage with
  | building => exact unwritten
  | applying => exact unwritten
  | idle | updating | inserting | again | finished => cases unwritten

/-- A hold with everything it has read after it was acquired. -/
structure Hold.Current (hold : Hold ρ) (acquisitions version : Nat) : Prop where
  latest : hold.ticket + 1 = acquisitions
  since : hold.since ≤ version
  reads : ∀ read ∈ hold.reads, hold.since ≤ read.version

structure Locked (state : State ι ρ) : Prop where
  holds : ∀ run hold, (state.stage run).hold = some hold →
    state.holder = some run ∧ hold.Current state.acquisitions state.version
  inserts : ∀ run, state.inserted = some run → state.holder = some run
  present : ∀ run, state.holder = some run → state.seeded = true ∨ state.inserted = some run
  seeded : state.seeded = true → state.inserted = none
  again : ∀ run, state.stage run = .again → state.seeded = true ∨ state.inserted = some run
  older : ∀ entry ∈ state.applied, entry.ticket < state.acquisitions
  unwritten : ∀ run hold, (state.stage run).unwritten = some hold →
    ∀ entry ∈ state.applied, entry.ticket < hold.ticket
  ordered : state.applied.Pairwise fun newer older => older.ticket < newer.ticket

section Steps

variable {state after : State ι ρ} {run other : ι} {action : Action ι ρ}

theorem State.set_stage (state : State ι ρ) (run : ι) (stage : Stage ρ) (other : ι) :
    (state.set run stage).stage other = if other = run then stage else state.stage other := by
  exact Function.update_apply state.stage run stage other

omit [DecidableEq ι] in
/-- Nobody else has the lock. -/
theorem Locked.alone (locked : Locked state)
    (free : state.holder = none ∨ state.holder = some run) (different : other ≠ run) :
    (state.stage other).hold = none := by
  by_contra held
  obtain ⟨hold, held⟩ := Option.ne_none_iff_exists'.mp held
  have holder := (locked.holds other hold held).1
  rcases free with none | same
  · rw [none] at holder
    cases holder
  · rw [same] at holder
    exact different (Option.some.inj holder).symm

/-- A run goes on without the lock. -/
theorem Locked.wait (locked : Locked state) {next : Stage ρ} (waits : next.hold = none)
    (again : next = .again → state.seeded = true ∨ state.inserted = some run) :
    Locked (state.set run next) where
  holds other hold held := by
    rw [State.set_stage] at held
    split at held
    next =>
      rw [waits] at held
      cases held
    next => exact locked.holds other hold held
  inserts := locked.inserts
  present := locked.present
  seeded := locked.seeded
  again other stage := by
    rw [State.set_stage] at stage
    split at stage
    next same =>
      rw [same]
      exact again stage
    next => exact locked.again other stage
  older := locked.older
  unwritten other hold held := by
    rw [State.set_stage] at held
    split at held
    next =>
      rw [Stage.hold_of_unwritten held] at waits
      cases waits
    next => exact locked.unwritten other hold held
  ordered := locked.ordered

theorem Locked.acquire (locked : Locked state)
    (free : state.holder = none ∨ state.holder = some run)
    (row : state.seeded = true ∨ state.inserted = some run) : Locked (state.acquire run) where
  holds other hold held := by
    change ((state.set run _).stage other).hold = some hold at held
    rw [State.set_stage] at held
    split at held
    next same =>
      cases held
      rw [same]
      exact ⟨rfl, rfl, Nat.le_refl _, fun read member => by cases member⟩
    next different =>
      rw [locked.alone free different] at held
      cases held
  inserts other inserted := by
    have holder := locked.inserts other inserted
    rcases free with none | same
    · rw [none] at holder
      cases holder
    · rw [same] at holder
      exact holder
  present other holder := by
    cases holder
    exact row
  seeded := locked.seeded
  again other stage := by
    change (state.set run _).stage other = .again at stage
    rw [State.set_stage] at stage
    split at stage
    next => cases stage
    next => exact locked.again other stage
  older entry member := Nat.lt_succ_of_lt (locked.older entry member)
  unwritten other hold held := by
    change ((state.set run _).stage other).unwritten = some hold at held
    rw [State.set_stage] at held
    split at held
    next =>
      cases held
      exact locked.older
    next different =>
      have none := locked.alone free different
      rw [Stage.hold_of_unwritten held] at none
      cases none
  ordered := locked.ordered

/-- The run with the lock goes on. -/
theorem Locked.advance (locked : Locked state) {hold next : Hold ρ} {stage : Stage ρ}
    (held : (state.stage run).unwritten = some hold) (holds : stage.hold = some next)
    (current : next.Current state.acquisitions state.version) : Locked (state.set run stage) where
  holds other other_ held_ := by
    rw [State.set_stage] at held_
    split at held_
    next same =>
      rw [holds] at held_
      cases held_
      rw [same]
      exact ⟨(locked.holds run hold (Stage.hold_of_unwritten held)).1, current⟩
    next => exact locked.holds other other_ held_
  inserts := locked.inserts
  present := locked.present
  seeded := locked.seeded
  again other again := by
    rw [State.set_stage] at again
    split at again
    next =>
      rw [again] at holds
      cases holds
    next => exact locked.again other again
  older := locked.older
  unwritten other other_ held_ := by
    rw [State.set_stage] at held_
    split at held_
    next =>
      have same := Stage.hold_of_unwritten held_
      rw [holds] at same
      cases same
      have before := (locked.holds run hold (Stage.hold_of_unwritten held)).2.latest
      have ticket : hold.ticket = next.ticket := Nat.succ.inj (before.trans current.latest.symm)
      rw [← ticket]
      exact locked.unwritten run hold held
    next => exact locked.unwritten other other_ held_
  ordered := locked.ordered

theorem Locked.release (locked : Locked state) (committed : Bool) :
    Locked (state.release run committed) := by
  have idle : Locked (state.set run .idle) := locked.wait rfl (fun same => by cases same)
  have others : ∀ other, other ≠ run → some other ≠ some run :=
    fun other different same => different (Option.some.inj same)
  constructor
  case holds =>
    intro other hold held
    obtain ⟨holder, current⟩ := idle.holds other hold held
    refine ⟨?_, current⟩
    change state.holder = some other at holder
    change (if state.holder = some run then none else state.holder) = some other
    by_cases same : other = run
    · subst same
      change ((state.set other .idle).stage other).hold = some hold at held
      rw [State.set_stage, if_pos rfl] at held
      cases held
    · rw [holder, if_neg (others other same)]
  case inserts =>
    intro other inserted
    change (if state.inserted = some run then none else state.inserted) = some other at inserted
    change (if state.holder = some run then none else state.holder) = some other
    split at inserted
    next => cases inserted
    next different =>
      have holder := locked.inserts other inserted
      rw [holder, if_neg]
      intro same
      exact different (inserted.trans same)
  case present =>
    intro other holder
    change (if state.holder = some run then none else state.holder) = some other at holder
    change (state.seeded || (committed && decide (state.inserted = some run))) = true ∨
      (if state.inserted = some run then none else state.inserted) = some other
    split at holder
    next => cases holder
    next different =>
      rcases locked.present other holder with seeded | inserted
      · rw [seeded]
        exact .inl rfl
      · rw [inserted, if_neg fun same => different (holder.trans same)]
        exact .inr rfl
  case seeded =>
    intro seeded
    change (state.seeded || (committed && decide (state.inserted = some run))) = true at seeded
    change (if state.inserted = some run then none else state.inserted) = none
    rw [Bool.or_eq_true, Bool.and_eq_true, decide_eq_true_eq] at seeded
    rcases seeded with seeded | ⟨-, own⟩
    · rw [locked.seeded seeded]
      rfl
    · rw [if_pos own]
  case again =>
    intro other again
    change (state.seeded || (committed && decide (state.inserted = some run))) = true ∨
      (if state.inserted = some run then none else state.inserted) = some other
    rcases idle.again other again with seeded | inserted
    · change state.seeded = true at seeded
      rw [seeded]
      exact .inl rfl
    · change state.inserted = some other at inserted
      have different : other ≠ run := by
        rintro rfl
        change (state.set other .idle).stage other = .again at again
        rw [State.set_stage, if_pos rfl] at again
        cases again
      rw [inserted, if_neg (others other different)]
      exact .inr rfl
  case older => exact locked.older
  case unwritten => exact idle.unwritten
  case ordered => exact locked.ordered

/-- The lock row is inserted where there is none, so that nobody has the lock. -/
theorem Locked.insert (locked : Locked state) (first : state.inserted = none)
    (unseeded : ¬ state.seeded = true) :
    Locked { state.set run .again with inserted := some run, holder := some run } := by
  have free : state.holder = none := by
    cases holder : state.holder with
    | none => rfl
    | some other =>
        rcases locked.present other holder with seeded | inserted
        · exact absurd seeded unseeded
        · rw [first] at inserted
          cases inserted
  have nobody : ∀ other, ((state.set run .again).stage other).hold = none := by
    intro other
    rw [State.set_stage]
    split
    next => rfl
    next different => exact locked.alone (.inl free) different
  constructor
  case holds =>
    intro other hold held
    rw [show (State.stage _ other).hold = none from nobody other] at held
    cases held
  case inserts => exact fun other inserted => inserted
  case present => exact fun other holder => .inr holder
  case seeded => exact fun seeded => absurd seeded unseeded
  case again =>
    intro other again
    change (state.set run .again).stage other = .again at again
    rw [State.set_stage] at again
    split at again
    next same =>
      rw [same]
      exact .inr rfl
    next =>
      rcases locked.again other again with seeded | inserted
      · exact .inl seeded
      · rw [first] at inserted
        cases inserted
  case older => exact locked.older
  case unwritten =>
    intro other hold held
    have none := nobody other
    rw [Stage.hold_of_unwritten held] at none
    cases none
  case ordered => exact locked.ordered

/-- The configuration is written, after those of all earlier acquisitions. -/
theorem Locked.write (locked : Locked state) {hold : Hold ρ}
    (applying : state.stage run = .applying hold) :
    Locked { state.set run (.finished hold) with applied := hold :: state.applied } := by
  have unwritten : (state.stage run).unwritten = some hold := by
    rw [applying]
    rfl
  obtain ⟨holder, current⟩ := locked.holds run hold (Stage.hold_of_unwritten unwritten)
  have done : Locked (state.set run (.finished hold)) := locked.advance unwritten rfl current
  constructor
  case holds => exact done.holds
  case inserts => exact locked.inserts
  case present => exact locked.present
  case seeded => exact locked.seeded
  case again => exact done.again
  case older =>
    intro entry member
    rcases List.mem_cons.mp member with rfl | old
    · exact Nat.lt_of_succ_le (Nat.le_of_eq current.latest)
    · exact locked.older entry old
  case unwritten =>
    intro other next held
    change ((state.set run (.finished hold)).stage other).unwritten = some next at held
    rw [State.set_stage] at held
    split at held
    next => cases held
    next different =>
      have none := locked.alone (.inr holder) different
      rw [Stage.hold_of_unwritten held] at none
      cases none
  case ordered =>
    rw [List.pairwise_cons]
    exact ⟨locked.unwritten run hold unwritten, locked.ordered⟩

theorem Locked.step (locked : Locked state) (performed : perform state action = some after) :
    Locked after := by
  cases action with
  | change rows =>
      cases performed
      refine { locked with holds := fun run hold held => ?_ }
      obtain ⟨holder, current⟩ := locked.holds run hold held
      exact ⟨holder, current.latest, Nat.le_succ_of_le current.since, current.reads⟩
  | start run =>
      rw [perform] at performed
      split at performed
      next =>
        cases performed
        exact locked.wait rfl (fun same => by cases same)
      next => cases performed
  | update run =>
      rw [perform] at performed
      split at performed
      next =>
        split_ifs at performed with seeded free
        · cases performed
          exact locked.acquire (.inl free) (.inl seeded)
        · cases performed
          exact locked.wait rfl (fun same => by cases same)
      next => cases performed
  | insert run =>
      rw [perform] at performed
      split at performed
      next =>
        split_ifs at performed with waits seeded
        · cases performed
          exact locked.wait rfl fun _ => .inl seeded
        · cases performed
          exact locked.insert (not_not.mp waits) seeded
      next => cases performed
  | updateAgain run =>
      rw [perform] at performed
      split at performed
      next stage =>
        split_ifs at performed with own seeded free
        · cases performed
          exact locked.acquire (.inr (locked.inserts run own)) (.inr own)
        · cases performed
          exact locked.acquire (.inl free) (.inl seeded)
        · rcases locked.again run stage with row | row
          · exact absurd row seeded
          · exact absurd row own
      next => cases performed
  | read run =>
      rw [perform] at performed
      split at performed
      next hold stage =>
        cases performed
        have unwritten : (state.stage run).unwritten = some hold := by
          rw [stage]
          rfl
        have current := (locked.holds run hold (Stage.hold_of_unwritten unwritten)).2
        refine locked.advance unwritten rfl ⟨current.latest, current.since, fun read member => ?_⟩
        rcases List.mem_append.mp member with old | new
        · exact current.reads read old
        · rw [List.mem_singleton.mp new]
          exact current.since
      next => cases performed
  | built run =>
      rw [perform] at performed
      split at performed
      next hold stage =>
        cases performed
        have unwritten : (state.stage run).unwritten = some hold := by
          rw [stage]
          rfl
        exact locked.advance unwritten rfl (locked.holds run hold (Stage.hold_of_unwritten unwritten)).2
      next => cases performed
  | skip run =>
      rw [perform] at performed
      split at performed
      next hold stage =>
        cases performed
        have unwritten : (state.stage run).unwritten = some hold := by
          rw [stage]
          rfl
        exact locked.advance unwritten rfl (locked.holds run hold (Stage.hold_of_unwritten unwritten)).2
      next => cases performed
  | write run =>
      rw [perform] at performed
      split at performed
      next hold stage =>
        cases performed
        exact locked.write stage
      next => cases performed
  | rollback run =>
      rw [perform] at performed
      split at performed
      next => cases performed
      next =>
        cases performed
        exact locked.release false
  | commit run =>
      rw [perform] at performed
      split at performed
      next =>
        cases performed
        exact locked.release true
      next => cases performed

omit [DecidableEq ι] in
theorem locked_initial (rows : ρ) (seeded : Bool) : Locked (State.initial rows seeded : State ι ρ) where
  holds _ _ held := by cases held
  inserts _ inserted := by cases inserted
  present _ holder := by cases holder
  seeded _ := rfl
  again _ again := by cases again
  older _ member := by cases member
  unwritten _ _ held := by cases held
  ordered := List.Pairwise.nil

/-! ## Nothing older is written -/

/-- The rows, and everything a run with the lock has read of them, meet a condition. -/
structure Fresh (condition : Snapshot ρ → Prop) (state : State ι ρ) : Prop where
  now : condition ⟨state.version, state.rows⟩
  reads : ∀ run hold, (state.stage run).hold = some hold → ∀ read ∈ hold.reads, condition read

theorem Fresh.set {condition : Snapshot ρ → Prop} (fresh : Fresh condition state) (run : ι)
    {next : Stage ρ}
    (reads : ∀ hold, next.hold = some hold → ∀ read ∈ hold.reads, condition read) :
    Fresh condition (state.set run next) where
  now := fresh.now
  reads other hold held := by
    rw [State.set_stage] at held
    split at held
    next => exact reads hold held
    next => exact fresh.reads other hold held

/-- A step keeps the condition, as long as the changes do, and what it writes meets it. -/
theorem Fresh.step {condition : Snapshot ρ → Prop} (fresh : Fresh condition state)
    (performed : perform state action = some after)
    (changes : ∀ rows, action = .change rows → condition ⟨state.version + 1, rows⟩) :
    Fresh condition after ∧ ∃ new, after.applied = new ++ state.applied ∧
      ∀ entry ∈ new, ∀ read ∈ entry.reads, condition read := by
  have nothing : ∀ next : Stage ρ, next.hold = none →
      ∀ hold, next.hold = some hold → ∀ read ∈ hold.reads, condition read := by
    intro next none hold held
    rw [none] at held
    cases held
  have acquired : ∀ hold : Hold ρ, hold.reads = [] →
      ∀ other, (Stage.building hold).hold = some other → ∀ read ∈ other.reads, condition read := by
    intro hold empty other held read member
    cases held
    rw [empty] at member
    cases member
  have same : ∃ new : List (Hold ρ), state.applied = new ++ state.applied ∧
      ∀ entry ∈ new, ∀ read ∈ entry.reads, condition read :=
    ⟨[], rfl, fun _ member => by cases member⟩
  cases action with
  | change rows =>
      cases performed
      exact ⟨⟨changes rows rfl, fresh.reads⟩, same⟩
  | start run =>
      rw [perform] at performed
      split at performed
      next =>
        cases performed
        exact ⟨fresh.set run (nothing _ rfl), same⟩
      next => cases performed
  | update run =>
      rw [perform] at performed
      split at performed
      next =>
        split_ifs at performed with seeded free
        · cases performed
          have set := fresh.set run (acquired ⟨state.acquisitions, state.version, []⟩ rfl)
          exact ⟨⟨set.now, set.reads⟩, same⟩
        · cases performed
          exact ⟨fresh.set run (nothing _ rfl), same⟩
      next => cases performed
  | insert run =>
      rw [perform] at performed
      split at performed
      next =>
        split_ifs at performed
        · cases performed
          exact ⟨fresh.set run (nothing _ rfl), same⟩
        · cases performed
          have set := fresh.set run (nothing .again rfl)
          exact ⟨⟨set.now, set.reads⟩, same⟩
      next => cases performed
  | updateAgain run =>
      rw [perform] at performed
      split at performed
      next =>
        have set := fresh.set run (acquired ⟨state.acquisitions, state.version, []⟩ rfl)
        split_ifs at performed
        · cases performed
          exact ⟨⟨set.now, set.reads⟩, same⟩
        · cases performed
          exact ⟨⟨set.now, set.reads⟩, same⟩
        · cases performed
          exact ⟨set, same⟩
      next => cases performed
  | read run =>
      rw [perform] at performed
      split at performed
      next hold stage =>
        cases performed
        refine ⟨fresh.set run fun other held read member => ?_, same⟩
        cases held
        rcases List.mem_append.mp member with old | new
        · exact fresh.reads run hold (by rw [stage]; rfl) read old
        · rw [List.mem_singleton.mp new]
          exact fresh.now
      next => cases performed
  | built run =>
      rw [perform] at performed
      split at performed
      next hold stage =>
        cases performed
        exact ⟨fresh.set run fun other held => by
          cases held
          exact fresh.reads run hold (by rw [stage]; rfl), same⟩
      next => cases performed
  | skip run =>
      rw [perform] at performed
      split at performed
      next hold stage =>
        cases performed
        exact ⟨fresh.set run fun other held => by
          cases held
          exact fresh.reads run hold (by rw [stage]; rfl), same⟩
      next => cases performed
  | write run =>
      rw [perform] at performed
      split at performed
      next hold stage =>
        cases performed
        have read := fresh.reads run hold (by rw [stage]; rfl)
        have set : Fresh condition (state.set run (.finished hold)) := fresh.set run fun other held => by
          cases held
          exact read
        refine ⟨⟨set.now, set.reads⟩, [hold], rfl, fun entry member => ?_⟩
        rw [List.mem_singleton.mp member]
        exact read
      next => cases performed
  | rollback run =>
      rw [perform] at performed
      split at performed
      next => cases performed
      next =>
        cases performed
        have set := fresh.set run (nothing .idle rfl)
        exact ⟨⟨set.now, set.reads⟩, same⟩
  | commit run =>
      rw [perform] at performed
      split at performed
      next =>
        cases performed
        have set := fresh.set run (nothing .idle rfl)
        exact ⟨⟨set.now, set.reads⟩, same⟩
      next => cases performed

/-- Whoever takes the lock starts from the rows as they are committed then. -/
theorem Locked.fresh (locked : Locked (state.acquire run)) {condition : Snapshot ρ → Prop}
    (now : condition ⟨state.version, state.rows⟩) : Fresh condition (state.acquire run) where
  now := now
  reads other hold held read member := by
    have holder := (locked.holds other hold held).1
    obtain rfl : run = other := Option.some.inj holder
    change ((state.set run _).stage run).hold = some hold at held
    rw [State.set_stage, if_pos rfl] at held
    cases held
    cases member

/-- Configurations reach Caddy in the order of the lock.  What is applied after the lock was taken is
built from rows read with everything that was committed before, and so meets whatever the rows met then
and the changes since have kept. -/
theorem reconciliation_monotone {rows : ρ} {seeded : Bool}
    (reached : Reaches perform (fun _ _ _ => True) (State.initial rows seeded) state) :
    state.applied.Pairwise (fun newer older => older.ticket < newer.ticket) ∧
    ∀ action run, perform state action = some (state.acquire run) → ∀ kept : ρ → Prop,
      kept state.rows → ∀ later, Reaches perform
        (fun _ action _ => ∀ rows, action = .change rows → kept rows) (state.acquire run) later →
      ∃ new, later.applied = new ++ state.applied ∧ ∀ entry ∈ new, ∀ read ∈ entry.reads,
        state.version ≤ read.version ∧ kept read.rows := by
  have locked : Locked state := reached.keeps Locked (locked_initial rows seeded)
    fun performed _ locked => locked.step performed
  refine ⟨locked.ordered, ?_⟩
  intro action run performed kept now later calm
  have start : Fresh (fun read => state.version ≤ read.version ∧ kept read.rows)
      (state.acquire run) := (locked.step performed).fresh ⟨Nat.le_refl _, now⟩
  have all := calm.keeps (fun middle =>
      Fresh (fun read => state.version ≤ read.version ∧ kept read.rows) middle ∧
        ∃ new, middle.applied = new ++ state.applied ∧ ∀ entry ∈ new, ∀ read ∈ entry.reads,
          state.version ≤ read.version ∧ kept read.rows)
    ⟨start, [], rfl, fun _ member => by cases member⟩ ?_
  · exact all.2
  · intro middle after action performed changes before
    obtain ⟨fresh, new, applied, meets⟩ := before
    obtain ⟨next, more, appended, reads⟩ := fresh.step performed fun rows same =>
      ⟨Nat.le_succ_of_le fresh.now.1, changes rows same⟩
    refine ⟨next, more ++ new, ?_, fun entry member => ?_⟩
    · rw [appended, applied, List.append_assoc]
    · rcases List.mem_append.mp member with recent | older
      · exact reads entry recent
      · exact meets entry older

end Steps

/-- The first acquisition, of a row that is not there yet, after the rows became `7`. -/
theorem reconciliation_monotone_first : ∃ later : State Bool Nat,
    later.applied.map (·.reads.length) = [1] ∧
      ∀ entry ∈ later.applied, ∀ read ∈ entry.reads, 1 ≤ read.version ∧ read.rows = 7 := by
  have inserting : Reaches perform (fun _ _ _ => True) (State.initial 0 false : State Bool Nat) _ :=
    .step (.step .start (rfl : perform _ (.start true) = _) trivial)
      (rfl : perform _ (.update true) = _) trivial
  have reached := Reaches.step (.step inserting (rfl : perform _ (.insert true) = _) trivial)
    (rfl : perform _ (.change 7) = _) trivial
  have written : ∃ later : State Bool Nat, later.applied.map (·.reads.length) = [1] ∧
      ∃ new, later.applied = new ++ [] ∧
        ∀ entry ∈ new, ∀ read ∈ entry.reads, 1 ≤ read.version ∧ read.rows = 7 := by
    refine ⟨_, ?_, (reconciliation_monotone reached).2 (.updateAgain true) true rfl (· = 7) rfl _
      (.step (.step (.step .start (rfl : perform _ (.read true) = _) (fun _ same => by cases same))
        (rfl : perform _ (.built true) = _) (fun _ same => by cases same))
        (rfl : perform _ (.write true) = _) (fun _ same => by cases same))⟩
    rfl
  obtain ⟨later, lengths, new, whole, meets⟩ := written
  rw [List.append_nil] at whole
  exact ⟨later, lengths, by rw [whole]; exact meets⟩

end CustomDomain.ReconcileLock
