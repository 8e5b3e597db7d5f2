import CustomDomain.TransactionProgram
import Mathlib.Logic.Function.Basic
import Mathlib.Logic.Relation
import Mathlib.Data.Fintype.Basic

/-!
# Interleaved transactions under READ COMMITTED

Any number of transactions run statement by statement, in any order, on one
database.  Every statement sees the committed rows as they are at that moment,
overlaid with the transaction's own pending changes.  A statement that writes
rows waits while another open transaction has written one of them, and the row
locks it takes are held until its transaction ends.

The state keeps, besides what a database has, the history the statements about
runs need: how many transactions have committed, at which of these versions a
transaction read, in which order row locks were granted, and which effects left
the database.
-/

namespace Transaction

open Relation

inductive Status where
  | running
  | committed
  | rolledBack
  deriving DecidableEq, Repr

/-- One transaction in progress: what is left of its body, the rows it has
locked, the changes it has not committed yet, and the versions it read. -/
structure Session (W : World) (α : Type) where
  program : Program W α
  locks : List W.Row := []
  pending : W.Db → W.Db := id
  reads : List Nat := []
  executed : Nat := 0
  status : Status := .running

namespace Session

variable {W : World} {α : Type}

/-- A transaction that has not executed a statement yet. -/
def start (program : Program W α) : Session W α where
  program := program

/-- The rows the transaction's next statement sees. -/
def view (session : Session W α) (db : W.Db) : W.Db :=
  session.pending db

def finish (session : Session W α) (status : Status) : Session W α :=
  { session with locks := [], pending := id, status := status }

/-- Execute the next statement on the rows it sees. -/
def execute (session : Session W α) (version : Nat) (view : W.Db) : Session W α :=
  match session.program with
  | .pure _ => session.finish .committed
  | .raise _ => session.finish .rolledBack
  | .select next =>
      { session with
        program := next view
        reads := session.reads ++ [version]
        executed := session.executed + 1 }
  | .write rows change next =>
      { session with
        program := next view
        locks := session.locks ++ rows view
        pending := change view ∘ session.pending
        executed := session.executed + 1 }
  | .emit _ next => { session with program := next, executed := session.executed + 1 }

/-- The rows the next statement writes. -/
def targets (session : Session W α) (view : W.Db) : List W.Row :=
  match session.program with
  | .write rows _ _ => rows view
  | _ => []

/-- The effects the next statement has outside the database. -/
def effects (session : Session W α) : List W.Effect :=
  match session.program with
  | .emit effect _ => [effect]
  | _ => []

/-- Whether the next step is the commit. -/
def commits (session : Session W α) : Bool :=
  match session.program with
  | .pure _ => true
  | _ => false

end Session

/-- An effect outside the database, with the versions its transaction had read
by then. -/
structure Entry (W : World) (ι : Type) where
  session : ι
  effect : W.Effect
  reads : List Nat

structure State (W : World) (ι α : Type) where
  committed : W.Db
  version : Nat := 0
  session : ι → Session W α
  grants : List (ι × W.Row) := []
  log : List (Entry W ι) := []

namespace State

variable {W : World} {ι α : Type}

/-- All transactions are about to execute their first statement. -/
def start (db : W.Db) (program : ι → Program W α) : State W ι α where
  committed := db
  session := fun index => Session.start (program index)

def view (state : State W ι α) (index : ι) : W.Db :=
  (state.session index).view state.committed

/-- The transaction's next statement does not have to wait. -/
def Enabled (state : State W ι α) (index : ι) : Prop :=
  (state.session index).status = .running ∧
    ∀ other, other ≠ index → ∀ row ∈ (state.session index).targets (state.view index),
      row ∉ (state.session other).locks

instance [Fintype ι] [DecidableEq ι] [DecidableEq W.Row] (state : State W ι α) (index : ι) :
    Decidable (state.Enabled index) :=
  inferInstanceAs (Decidable (_ ∧ _))

section Steps

variable [DecidableEq ι]

/-- Execute one statement of one transaction, or end it. -/
def advance (state : State W ι α) (index : ι) : State W ι α :=
  let session := state.session index
  let view := state.view index
  { committed := if session.commits then view else state.committed
    version := if session.commits then state.version + 1 else state.version
    session := Function.update state.session index (session.execute state.version view)
    grants := state.grants ++ (session.targets view).map fun row => (index, row)
    log := state.log ++ session.effects.map fun effect => ⟨index, effect, session.reads⟩ }

/-- The transaction is rolled back from outside: a deadlock victim, a lost
connection, a process that stops. -/
def abort (state : State W ι α) (index : ι) : State W ι α :=
  { state with
    session := Function.update state.session index
      ((state.session index).finish .rolledBack) }

/-- One step of any transaction. -/
def Step (state next : State W ι α) : Prop :=
  ∃ index,
    (state.Enabled index ∧ next = state.advance index) ∨
      ((state.session index).status = .running ∧ next = state.abort index)

/-- One step of a transaction that the guard lets proceed. -/
def GuardedStep (guard : State W ι α → ι → Prop) (state next : State W ι α) : Prop :=
  ∃ index,
    (state.Enabled index ∧ guard state index ∧ next = state.advance index) ∨
      ((state.session index).status = .running ∧ next = state.abort index)

theorem GuardedStep.reaches {guard : State W ι α → ι → Prop} {state next : State W ι α}
    (reaches : ReflTransGen (GuardedStep guard) state next) : ReflTransGen Step state next := by
  refine ReflTransGen.mono (fun before after step => ?_) _ _ reaches
  obtain ⟨index, ⟨enabled, -, moved⟩ | aborted⟩ := step
  · exact ⟨index, .inl ⟨enabled, moved⟩⟩
  · exact ⟨index, .inr aborted⟩

/-- The state after the next statements of these transactions, in that order. -/
def follow (state : State W ι α) (schedule : List ι) : State W ι α :=
  schedule.foldl advance state

/-- None of them has to wait, and the guard lets them all proceed. -/
def CanFollow (guard : State W ι α → ι → Prop) : State W ι α → List ι → Prop
  | _, [] => True
  | state, index :: schedule =>
      (state.Enabled index ∧ guard state index) ∧ CanFollow guard (state.advance index) schedule

instance CanFollow.decidable [Fintype ι] [DecidableEq W.Row] (guard : State W ι α → ι → Prop)
    [decides : ∀ state index, Decidable (guard state index)] :
    ∀ (state : State W ι α) (schedule : List ι), Decidable (CanFollow guard state schedule)
  | _, [] => .isTrue trivial
  | state, index :: schedule =>
      have := CanFollow.decidable guard (state.advance index) schedule
      inferInstanceAs (Decidable (_ ∧ _))

theorem CanFollow.guarded {guard : State W ι α → ι → Prop} {state : State W ι α}
    {schedule : List ι} (canFollow : CanFollow guard state schedule) :
    ReflTransGen (GuardedStep guard) state (state.follow schedule) := by
  induction schedule generalizing state with
  | nil => exact .refl
  | cons index schedule ih =>
      exact .head ⟨index, .inl ⟨canFollow.1.1, canFollow.1.2, rfl⟩⟩ (ih canFollow.2)

section Frame

variable (state : State W ι α) (index : ι)

@[simp] theorem advance_session_self :
    (state.advance index).session index =
      (state.session index).execute state.version (state.view index) := by
  simp [advance]

theorem advance_session_of_ne {other : ι} (distinct : other ≠ index) :
    (state.advance index).session other = state.session other := by
  simp [advance, Function.update_of_ne distinct]

@[simp] theorem abort_session_self :
    (state.abort index).session index = (state.session index).finish .rolledBack := by
  simp [abort]

theorem abort_session_of_ne {other : ι} (distinct : other ≠ index) :
    (state.abort index).session other = state.session other := by
  simp [abort, Function.update_of_ne distinct]

@[simp] theorem abort_committed : (state.abort index).committed = state.committed := rfl

@[simp] theorem abort_version : (state.abort index).version = state.version := rfl

@[simp] theorem abort_log : (state.abort index).log = state.log := rfl

@[simp] theorem abort_grants : (state.abort index).grants = state.grants := rfl

theorem advance_committed_of_commits (commits : (state.session index).commits = true) :
    (state.advance index).committed = state.view index := by
  simp [advance, commits]

theorem advance_committed_of_not_commits (open_ : (state.session index).commits = false) :
    (state.advance index).committed = state.committed := by
  simp [advance, open_]

end Frame

end Steps

/-- A statement that does not end the transaction is counted. -/
theorem executed_advance_self [DecidableEq ι] {state : State W ι α} {index : ι}
    (running : ((state.advance index).session index).status = .running) :
    ((state.advance index).session index).executed = (state.session index).executed + 1 := by
  rw [advance_session_self] at running ⊢
  unfold Session.execute at running ⊢
  split at running <;> simp_all [Session.finish]

/-- A transaction that has executed nothing is as it was at the start. -/
theorem session_of_unstarted [DecidableEq ι] {db : W.Db} {program : ι → Program W α}
    {state : State W ι α} {index : ι} (reaches : ReflTransGen Step (start db program) state)
    (running : (state.session index).status = .running)
    (unstarted : (state.session index).executed = 0) :
    state.session index = Session.start (program index) := by
  induction reaches with
  | refl => rfl
  | @tail state next reaches step ih =>
      obtain ⟨moved, ⟨_, rfl⟩ | ⟨_, rfl⟩⟩ := step
      · by_cases same : index = moved
        · subst same
          rw [advance_session_self] at running unstarted
          unfold Session.execute at running unstarted
          split at running <;> simp_all [Session.finish]
        · rw [advance_session_of_ne state moved same] at *
          exact ih running unstarted
      · by_cases same : index = moved
        · subst same
          rw [abort_session_self] at running
          cases running
        · rw [abort_session_of_ne state moved same] at *
          exact ih running unstarted

/-! ## Row locks exclude each other -/

/-- No row is locked by two transactions. -/
def Exclusive (state : State W ι α) : Prop :=
  ∀ first second, first ≠ second →
    ∀ row ∈ (state.session first).locks, row ∉ (state.session second).locks

theorem start_exclusive (db : W.Db) (program : ι → Program W α) :
    (start db program).Exclusive := by
  intro first second _ row member
  simp [start, Session.start] at member

/-- The locks after a statement are among those before it and its targets. -/
theorem mem_execute_locks {session : Session W α} {version : Nat} {view : W.Db} {row : W.Row}
    (member : row ∈ (session.execute version view).locks) :
    row ∈ session.locks ∨ row ∈ session.targets view := by
  unfold Session.execute at member
  unfold Session.targets
  split at member <;> simp_all [Session.finish]

variable [DecidableEq ι]

theorem exclusive_step {state next : State W ι α} (exclusive : state.Exclusive)
    (step : Step state next) : next.Exclusive := by
  obtain ⟨index, ⟨enabled, rfl⟩ | ⟨_, rfl⟩⟩ := step
  · intro first second distinct row member
    by_cases firstMoves : first = index
    · subst firstMoves
      rw [advance_session_of_ne state first distinct.symm]
      rw [advance_session_self] at member
      rcases mem_execute_locks member with held | target
      · exact exclusive first second distinct row held
      · exact enabled.2 second distinct.symm row target
    · rw [advance_session_of_ne state index firstMoves] at member
      by_cases secondMoves : second = index
      · subst secondMoves
        rw [advance_session_self]
        intro taken
        rcases mem_execute_locks taken with held | target
        · exact exclusive first second distinct row member held
        · exact enabled.2 first distinct row target member
      · rw [advance_session_of_ne state index secondMoves]
        exact exclusive first second distinct row member
  · intro first second distinct row member
    by_cases firstMoves : first = index
    · subst firstMoves
      simp [Session.finish] at member
    · rw [abort_session_of_ne state index firstMoves] at member
      by_cases secondMoves : second = index
      · subst secondMoves
        simp [Session.finish]
      · rw [abort_session_of_ne state index secondMoves]
        exact exclusive first second distinct row member

theorem exclusive_of_reaches {state next : State W ι α} (exclusive : state.Exclusive)
    (reaches : ReflTransGen Step state next) : next.Exclusive := by
  induction reaches with
  | refl => exact exclusive
  | tail _ step ih => exact exclusive_step ih step

/-! ## A transaction no other one commits beside runs as if alone -/

/-- How the transaction ends and what it leaves, if no other one commits from
now on. -/
def remaining (state : State W ι α) (index : ι) : Except W.Error α × W.Db :=
  (state.session index).program.run (state.view index)

theorem remaining_advance_self {state : State W ι α} {index : ι}
    (running : ((state.advance index).session index).status = .running) :
    (state.advance index).remaining index = state.remaining index := by
  unfold remaining view Session.view at *
  rw [advance_session_self] at *
  unfold Session.execute at *
  cases shape : (state.session index).program with
  | pure value => simp [shape, Session.finish] at running
  | raise error => simp [shape, Session.finish] at running
  | select next => simp [shape, advance, Session.commits, view, Session.view]
  | write rows change next => simp [shape, advance, Session.commits, view, Session.view]
  | emit effect next => simp [shape, advance, Session.commits]

theorem remaining_advance_other {state : State W ι α} {index other : ι}
    (distinct : other ≠ index) (quiet : (state.session index).commits = false) :
    (state.advance index).remaining other = state.remaining other := by
  unfold remaining view Session.view
  rw [advance_session_of_ne state index distinct, advance_committed_of_not_commits state index quiet]

theorem remaining_abort_other {state : State W ι α} {index other : ι}
    (distinct : other ≠ index) :
    (state.abort index).remaining other = state.remaining other := by
  unfold remaining view Session.view
  rw [abort_session_of_ne state index distinct, abort_committed]

end State

end Transaction
