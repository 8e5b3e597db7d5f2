import CustomDomain.TransactionInterleaving

/-!
# Reasoning about interleaved transactions one at a time

A transaction is verified on its own, against a `Rely`: what the commits of
other transactions may do to the rows while it holds its locks.  The locks are
the only argument, since they are all that keeps the others away.  `Safe` says
that every statement of a body meets its obligation whatever the others do
within the rely, and the composition rule puts transactions together whose
commits stay within what the others rely on.
-/

namespace Transaction

open Relation

variable {W : World} {α β : Type}

/-- The part of a running transaction its next statement depends on. -/
structure Moment (W : World) where
  locks : List W.Row
  pending : W.Db → W.Db
  committed : W.Db

namespace Moment

def view (moment : Moment W) : W.Db := moment.pending moment.committed

/-- The same transaction after others have committed. -/
def later (moment : Moment W) (db : W.Db) : Moment W := { moment with committed := db }

/-- After a write of the transaction itself. -/
def written (moment : Moment W) (rows : W.Db → List W.Row) (change : W.Db → W.Db → W.Db) :
    Moment W where
  locks := moment.locks ++ rows moment.view
  pending := change moment.view ∘ moment.pending
  committed := moment.committed

end Moment

/-- What the commits of others may do while a transaction holds its locks. -/
structure Rely (W : World) where
  Allows : List W.Row → W.Db → W.Db → Prop
  refl : ∀ locks db, Allows locks db db
  trans : ∀ {locks first second third}, Allows locks first second → Allows locks second third →
    Allows locks first third
  /-- More locks keep more away. -/
  mono : ∀ {locks more before after}, Allows (locks ++ more) before after →
    Allows locks before after

/-- Whatever the others commit first. -/
def Rely.Always (rely : Rely W) (moment : Moment W) (holds : Moment W → Prop) : Prop :=
  ∀ db, rely.Allows moment.locks moment.committed db → holds (moment.later db)

theorem Rely.Always.now {rely : Rely W} {moment : Moment W} {holds : Moment W → Prop}
    (always : rely.Always moment holds) : holds moment :=
  always moment.committed (rely.refl _ _)

theorem Rely.Always.later {rely : Rely W} {moment : Moment W} {holds : Moment W → Prop}
    (always : rely.Always moment holds) {db : W.Db}
    (allows : rely.Allows moment.locks moment.committed db) :
    rely.Always (moment.later db) holds :=
  fun after allows' => always after (rely.trans allows allows')

/-- What must hold when a statement of each kind is reached. -/
structure Outline (W : World) where
  select : Moment W → Prop := fun _ => True
  emit : W.Effect → Moment W → Prop := fun _ _ => True
  raise : W.Error → Moment W → Prop := fun _ _ => True

/-- Every statement of the body meets its obligation, and its end meets
`post`. -/
def Safe (rely : Rely W) (outline : Outline W) (post : α → Moment W → Prop) :
    Program W α → Moment W → Prop
  | .pure value, moment => rely.Always moment (post value)
  | .raise error, moment => rely.Always moment (outline.raise error)
  | .select next, moment => rely.Always moment fun now =>
      outline.select now ∧ Safe rely outline post (next now.view) now
  | .write rows change next, moment => rely.Always moment fun now =>
      Safe rely outline post (next now.view) (now.written rows change)
  | .emit effect next, moment => rely.Always moment fun now =>
      outline.emit effect now ∧ Safe rely outline post next now

namespace Safe

variable {rely : Rely W} {outline : Outline W} {post : α → Moment W → Prop}
  {program : Program W α} {moment : Moment W}

/-- Safety survives what the others commit. -/
theorem later (safe : Safe rely outline post program moment) {db : W.Db}
    (allows : rely.Allows moment.locks moment.committed db) :
    Safe rely outline post program (moment.later db) := by
  cases program with
  | pure value => exact Rely.Always.later safe allows
  | raise error => exact Rely.Always.later safe allows
  | select next => exact Rely.Always.later safe allows
  | write rows change next => exact Rely.Always.later safe allows
  | emit effect next => exact Rely.Always.later safe allows

theorem bind {rest : α → Program W β} {next : β → Moment W → Prop}
    (safe : Safe rely outline post program moment)
    (continues : ∀ value moment, post value moment → Safe rely outline next (rest value) moment) :
    Safe rely outline next (program >>= rest) moment := by
  change Safe rely outline next (program.bind rest) moment
  induction program generalizing moment with
  | pure value => exact continues value moment (Rely.Always.now safe)
  | raise error => exact safe
  | select body ih =>
      exact fun db allows => ⟨(safe db allows).1, ih _ (safe db allows).2⟩
  | write rows change body ih => exact fun db allows => ih _ (safe db allows)
  | emit effect body ih =>
      exact fun db allows => ⟨(safe db allows).1, ih (safe db allows).2⟩

theorem weaken {post' : α → Moment W → Prop} (safe : Safe rely outline post program moment)
    (implies : ∀ value moment, post value moment → post' value moment) :
    Safe rely outline post' program moment := by
  induction program generalizing moment with
  | pure value => exact fun db allows => implies value _ (safe db allows)
  | raise error => exact safe
  | select body ih =>
      exact fun db allows => ⟨(safe db allows).1, ih _ (safe db allows).2⟩
  | write rows change body ih => exact fun db allows => ih _ (safe db allows)
  | emit effect body ih =>
      exact fun db allows => ⟨(safe db allows).1, ih (safe db allows).2⟩

theorem of_pure {value : α} (holds : rely.Always moment (post value)) :
    Safe rely outline post (.pure value) moment :=
  holds

theorem of_raise {error : W.Error} (holds : rely.Always moment (outline.raise error)) :
    Safe rely outline post (.raise error) moment :=
  holds

theorem of_select {next : W.Db → Program W α}
    (holds : rely.Always moment fun now =>
      outline.select now ∧ Safe rely outline post (next now.view) now) :
    Safe rely outline post (.select next) moment :=
  holds

theorem of_write {rows : W.Db → List W.Row} {change : W.Db → W.Db → W.Db}
    {next : W.Db → Program W α}
    (holds : rely.Always moment fun now =>
      Safe rely outline post (next now.view) (now.written rows change)) :
    Safe rely outline post (.write rows change next) moment :=
  holds

theorem readThen {query : W.Db → β} {rest : β → Program W α}
    (holds : rely.Always moment fun now =>
      outline.select now ∧ Safe rely outline post (rest (query now.view)) now) :
    Safe rely outline post (Program.read query >>= rest) moment :=
  holds

theorem requireThen {condition : Prop} {decision : Decidable condition} {error : W.Error}
    {rest : Unit → Program W α} (met : condition → Safe rely outline post (rest ()) moment)
    (refused : ¬ condition → rely.Always moment (outline.raise error)) :
    Safe rely outline post (Program.require condition error >>= rest) moment := by
  by_cases holds : condition
  · rw [Program.require, if_pos holds]
    exact met holds
  · rw [Program.require, if_neg holds]
    exact refused holds

theorem foldEach {ι σ : Type} {items : List ι} {state : σ} {body : σ → ι → Program W σ}
    (invariant : σ → Moment W → Prop) (start : invariant state moment)
    (stable : ∀ state moment db, invariant state moment →
      rely.Allows moment.locks moment.committed db → invariant state (moment.later db))
    (round : ∀ state item moment, invariant state moment →
      Safe rely outline invariant (body state item) moment) :
    Safe rely outline invariant (Program.foldEach items state body) moment := by
  induction items generalizing state moment with
  | nil => exact fun db allows => stable state moment db start allows
  | cons item items ih => exact (round state item moment start).bind fun _ _ holds => ih holds

end Safe

/-- A body whose result is dropped. -/
theorem Safe.discard {rely : Rely W} {outline : Outline W} {post : Moment W → Prop}
    {program : Program W α} {moment : Moment W}
    (safe : Safe rely outline (fun _ => post) program moment)
    (stable : ∀ moment db, post moment → rely.Allows moment.locks moment.committed db →
      post (moment.later db)) :
    Safe rely outline (fun _ : Unit => post) (do let _ ← program; pure ()) moment :=
  safe.bind fun _ moment holds => Safe.of_pure fun db allows => stable moment db holds allows

/-- Every write of the body makes a change that satisfies `change`, every error
it raises satisfies `error`, and it has no effect outside the database. -/
def Program.Within (change : (W.Db → W.Db) → Prop) (error : W.Error → Prop) :
    Program W α → Prop
  | .pure _ => True
  | .raise raised => error raised
  | .select next => ∀ db, (next db).Within change error
  | .write _ made next => ∀ db, change (made db) ∧ (next db).Within change error
  | .emit _ _ => False

namespace Program.Within

variable {change : (W.Db → W.Db) → Prop} {error : W.Error → Prop} {program : Program W α}

theorem bind {rest : α → Program W β} (within : program.Within change error)
    (continues : ∀ value, (rest value).Within change error) :
    (program >>= rest).Within change error := by
  change (program.bind rest).Within _ error
  induction program with
  | pure value => exact continues value
  | raise error => exact within
  | select next ih => exact fun db => ih db (within db)
  | write rows change next ih => exact fun db => ⟨(within db).1, ih db (within db).2⟩
  | emit effect next ih => exact within.elim

theorem require {condition : Prop} {decision : Decidable condition} {raised : W.Error}
    (allowed : error raised) : (Program.require condition raised : Program W Unit).Within change
      error := by
  unfold Program.require
  split
  next => exact trivial
  next => exact allowed

theorem requireThen {condition : Prop} {decision : Decidable condition} {raised : W.Error}
    {rest : Unit → Program W α} (allowed : error raised) (continues : (rest ()).Within change error) :
    (Program.require condition raised >>= rest).Within change error :=
  (require allowed).bind fun _ => continues

theorem foldEach {ι σ : Type} {items : List ι} {state : σ} {body : σ → ι → Program W σ}
    (round : ∀ state item, (body state item).Within change error) :
    (Program.foldEach items state body).Within change error := by
  induction items generalizing state with
  | nil => exact trivial
  | cons item items ih => exact (round state item).bind fun _ => ih

theorem mono {change' : (W.Db → W.Db) → Prop} {error' : W.Error → Prop}
    (within : program.Within change error) (changes : ∀ made, change made → change' made)
    (errors : ∀ raised, error raised → error' raised) : program.Within change' error' := by
  induction program with
  | pure value => exact trivial
  | raise raised => exact errors raised within
  | select next ih => exact fun db => ih db (within db)
  | write rows made next ih => exact fun db => ⟨changes _ (within db).1, ih db (within db).2⟩
  | emit effect next ih => exact within.elim

/-- What every write keeps, a body run alone keeps. -/
theorem spec (within : program.Within change error) (holds : W.Db → Prop)
    (step : ∀ made db, change made → holds db → holds (made db)) {db : W.Db} (start : holds db) :
    program.Spec db (fun _ after => holds after) fun _ after => holds after := by
  induction program generalizing db with
  | pure value => exact .of_pure start
  | raise raised => exact .of_raise start
  | select next ih => exact .of_select (ih db (within db) start)
  | write rows made next ih =>
      exact .of_write (ih db (within db).2 (step _ _ (within db).1 start))
  | emit effect next ih => exact within.elim

/-- A body run alone raises only such errors. -/
theorem raises (within : program.Within change error) (db : W.Db) :
    program.Spec db (fun _ _ => True) fun raised _ => error raised := by
  induction program generalizing db with
  | pure value => exact .of_pure trivial
  | raise raised => exact .of_raise within
  | select next ih => exact .of_select (ih db (within db) db)
  | write rows made next ih => exact .of_write (ih db (within db).2 _)
  | emit effect next ih => exact within.elim

/-- A body whose writes all keep `invariant`, which the others keep too. -/
theorem safe {rely : Rely W} {outline : Outline W} {post : α → Moment W → Prop}
    (within : program.Within change error) (invariant : Moment W → Prop)
    (stable : ∀ moment db, invariant moment → rely.Allows moment.locks moment.committed db →
      invariant (moment.later db))
    (step : ∀ moment rows made, invariant moment → change (made moment.view) →
      invariant (moment.written rows made))
    (select : ∀ moment, invariant moment → outline.select moment)
    (raise : ∀ raised moment, invariant moment → error raised → outline.raise raised moment)
    (done : ∀ value moment, invariant moment → post value moment)
    {moment : Moment W} (start : invariant moment) : Safe rely outline post program moment := by
  induction program generalizing moment with
  | pure value => exact fun db allows => done value _ (stable moment db start allows)
  | raise raised => exact fun db allows => raise raised _ (stable moment db start allows) within
  | select next ih =>
      intro db allows
      have kept := stable moment db start allows
      exact ⟨select _ kept, ih _ (within _) kept⟩
  | write rows made next ih =>
      intro db allows
      have kept := stable moment db start allows
      exact ih _ (within _).2 (step _ rows made kept (within _).1)
  | emit effect next ih => exact within.elim

end Program.Within

/-! ## Transactions that run together -/

namespace State

variable {ι : Type}

/-- The moment a transaction is at. -/
def moment (state : State W ι α) (index : ι) : Moment W where
  locks := (state.session index).locks
  pending := (state.session index).pending
  committed := state.committed

/-- The rest of the transaction is safe, if it is still running. -/
def SafeAt (rely : Rely W) (outline : Outline W) (post : α → Moment W → Prop)
    (state : State W ι α) (index : ι) : Prop :=
  (state.session index).status = .running →
    Safe rely outline post (state.session index).program (state.moment index)

section Steps

variable {rely : Rely W} {outline : Outline W} {post : α → Moment W → Prop}
  {state : State W ι α} {index other : ι}

theorem start_safeAt {db : W.Db} {program : ι → Program W α}
    (safe : Safe rely outline post (program index) ⟨[], id, db⟩) :
    SafeAt rely outline post (start db program) index :=
  fun _ => safe

/-- At its commit a safe transaction meets its postcondition. -/
theorem SafeAt.at_commit (safe : SafeAt rely outline post state index)
    (running : (state.session index).status = .running)
    (commits : (state.session index).commits = true) :
    ∃ value, (state.session index).program = .pure value ∧ post value (state.moment index) := by
  have here := safe running
  unfold Session.commits at commits
  split at commits
  next value shape =>
    rw [shape] at here
    exact ⟨value, shape, Rely.Always.now here⟩
  next => cases commits

variable [DecidableEq ι]

/-- The transaction's own statements keep it safe. -/
theorem SafeAt.advance_self (safe : SafeAt rely outline post state index)
    (running : (state.session index).status = .running) :
    SafeAt rely outline post (state.advance index) index := by
  have here := safe running
  intro still
  unfold moment at *
  rw [advance_session_self] at still ⊢
  unfold Session.execute at *
  cases shape : (state.session index).program with
  | pure value => simp [shape, Session.finish] at still
  | raise error => simp [shape, Session.finish] at still
  | select next =>
      rw [shape] at here
      have quiet : (state.session index).commits = false := by simp [Session.commits, shape]
      simp only [advance_committed_of_not_commits state index quiet]
      exact (Rely.Always.now here).2
  | write rows change next =>
      rw [shape] at here
      have quiet : (state.session index).commits = false := by simp [Session.commits, shape]
      simp only [advance_committed_of_not_commits state index quiet]
      exact here state.committed (rely.refl _ _)
  | emit effect next =>
      rw [shape] at here
      have quiet : (state.session index).commits = false := by simp [Session.commits, shape]
      simp only [advance_committed_of_not_commits state index quiet]
      exact (Rely.Always.now here).2

/-- So do the others, as long as their commits are within the rely. -/
theorem SafeAt.advance_other (safe : SafeAt rely outline post state index)
    (distinct : index ≠ other)
    (allows : rely.Allows (state.session index).locks state.committed
      (state.advance other).committed) :
    SafeAt rely outline post (state.advance other) index := by
  intro still
  unfold moment
  rw [advance_session_of_ne state other distinct] at still ⊢
  exact (safe still).later allows

theorem SafeAt.abort (safe : SafeAt rely outline post state index) :
    SafeAt rely outline post (state.abort other) index := by
  intro still
  unfold moment
  by_cases same : index = other
  · subst same
    rw [abort_session_self] at still
    cases still
  · rw [abort_session_of_ne state other same] at still ⊢
    exact safe still

end Steps

/-- The next step of the transaction is to raise. -/
def Raises (state : State W ι α) (index : ι) (error : W.Error) : Prop :=
  (state.session index).status = .running ∧ (state.session index).program = .raise error

theorem SafeAt.raises {rely : Rely W} {outline : Outline W} {post : α → Moment W → Prop}
    {state : State W ι α} {index : ι} {error : W.Error}
    (safe : SafeAt rely outline post state index) (raises : state.Raises index error) :
    outline.raise error (state.moment index) := by
  have here := safe raises.1
  rw [raises.2] at here
  exact Rely.Always.now here

variable [DecidableEq ι]

/-- A transaction stays safe through any steps that leave the rows within the
rely. -/
theorem SafeAt.step {rely : Rely W} {outline : Outline W} {post : α → Moment W → Prop}
    {state next : State W ι α} {index : ι} (safe : SafeAt rely outline post state index)
    (step : Step state next)
    (allows : rely.Allows (state.session index).locks state.committed next.committed) :
    SafeAt rely outline post next index := by
  obtain ⟨moved, ⟨enabled, rfl⟩ | ⟨_, rfl⟩⟩ := step
  · by_cases same : index = moved
    · subst same
      exact safe.advance_self enabled.1
    · exact safe.advance_other same allows
  · exact safe.abort

/-- Commits under disjoint locks are what the others rely on. -/
def Guarantees (rely : Rely W) (post : α → Moment W → Prop) : Prop :=
  ∀ value moment, post value moment → ∀ locks : List W.Row, (∀ row ∈ moment.locks, row ∉ locks) →
    rely.Allows locks moment.committed moment.view

/-- The rows change as the others rely on, whichever transaction moves. -/
theorem SafeAt.allows {rely : Rely W} {outline : Outline W} {post : α → Moment W → Prop}
    {state : State W ι α} {index : ι} (guarantees : Guarantees rely post)
    (safe : SafeAt rely outline post state index) (running : (state.session index).status = .running)
    {locks : List W.Row} (apart : ∀ row ∈ (state.session index).locks, row ∉ locks) :
    rely.Allows locks state.committed (state.advance index).committed := by
  cases commits : (state.session index).commits with
  | true =>
      obtain ⟨value, -, holds⟩ := safe.at_commit running commits
      rw [advance_committed_of_commits state index commits]
      exact guarantees value _ holds _ apart
  | false =>
      rw [advance_committed_of_not_commits state index commits]
      exact rely.refl _ _

/-- The composition rule: transactions that are each safe against the rely and
keep to it when they commit are safe together. -/
theorem safeAt_of_reaches {rely : Rely W} {outline : ι → Outline W}
    {post : ι → α → Moment W → Prop} {first last : State W ι α}
    (guarantees : ∀ index, Guarantees rely (post index)) (exclusive : first.Exclusive)
    (safe : ∀ index, SafeAt rely (outline index) (post index) first index)
    (reaches : ReflTransGen Step first last) :
    ∀ index, SafeAt rely (outline index) (post index) last index := by
  induction reaches with
  | refl => exact safe
  | @tail state next reaches step ih =>
      have exclusive := exclusive_of_reaches exclusive reaches
      intro index
      obtain ⟨moved, ⟨enabled, rfl⟩ | ⟨_, rfl⟩⟩ := step
      · by_cases same : index = moved
        · subst same
          exact (ih index).advance_self enabled.1
        · exact (ih index).advance_other same ((ih moved).allows (guarantees moved) enabled.1
            (exclusive moved index (Ne.symm same)))
      · exact (ih index).abort

/-! ## What committed transactions leave -/

section Ended

variable {rely : Rely W} {outline : ι → Outline W} {post : ι → α → Moment W → Prop}
  {first last : State W ι α}

/-- The transaction has committed with this value. -/
def Ended (state : State W ι α) (index : ι) (value : α) : Prop :=
  (state.session index).status = .committed ∧ (state.session index).program = .pure value

omit [DecidableEq ι] in
theorem ended_start (db : W.Db) (program : ι → Program W α) (index : ι) (value : α) :
    ¬ (start db program).Ended index value := by
  rintro ⟨status, -⟩
  cases status

/-- A transaction that has ended after a step had ended before it, or it commits in it. -/
theorem Ended.of_step {state next : State W ι α} {moved index : ι} {value : α}
    (ended : next.Ended index value)
    (step : (state.Enabled moved ∧ next = state.advance moved) ∨
      ((state.session moved).status = .running ∧ next = state.abort moved)) :
    state.Ended index value ∨ (index = moved ∧ (state.session index).status = .running ∧
      (state.session index).program = .pure value ∧ next = state.advance index) := by
  obtain ⟨status, shape⟩ := ended
  rcases step with ⟨enabled, rfl⟩ | ⟨-, rfl⟩
  · by_cases same : index = moved
    · subst same
      refine .inr ⟨rfl, enabled.1, ?_, rfl⟩
      rw [advance_session_self] at status shape
      have running := enabled.1
      unfold Session.execute at status shape
      split at status <;> simp_all [Session.finish]
    · rw [advance_session_of_ne state moved same] at status shape
      exact .inl ⟨status, shape⟩
  · by_cases same : index = moved
    · subst same
      rw [abort_session_self] at status
      cases status
    · rw [abort_session_of_ne state moved same] at status shape
      exact .inl ⟨status, shape⟩

/-- A transaction that has ended stays as it is. -/
theorem Ended.step {state next : State W ι α} {index : ι} {value : α} (ended : state.Ended index value)
    (step : Step state next) : next.Ended index value := by
  obtain ⟨moved, ⟨enabled, rfl⟩ | ⟨running, rfl⟩⟩ := step
  · have other : index ≠ moved := by
      rintro rfl
      cases ended.1.symm.trans enabled.1
    rw [Ended, advance_session_of_ne state moved other]
    exact ended
  · have other : index ≠ moved := by
      rintro rfl
      cases ended.1.symm.trans running
    rw [Ended, abort_session_of_ne state moved other]
    exact ended

/-- A commit ends the transaction with its value. -/
theorem ended_advance {state : State W ι α} {index : ι} {value : α}
    (shape : (state.session index).program = .pure value) :
    (state.advance index).Ended index value := by
  rw [Ended, advance_session_self, Session.execute, shape]
  exact ⟨rfl, shape⟩

/-- What the ends of transactions establish, and the others keep, holds of every one that has ended. -/
theorem ended_of_reaches (guarantees : ∀ index, Guarantees rely (post index))
    (exclusive : first.Exclusive)
    (safe : ∀ index, SafeAt rely (outline index) (post index) first index)
    (none_ : ∀ index value, ¬ first.Ended index value) (outcome : ι → α → W.Db → Prop)
    (establishes : ∀ index value moment, post index value moment →
      outcome index value moment.view)
    (keeps : ∀ index value before after, rely.Allows [] before after →
      outcome index value before → outcome index value after)
    (reaches : ReflTransGen Step first last) :
    ∀ index value, last.Ended index value → outcome index value last.committed := by
  induction reaches with
  | refl => exact fun index value ended => absurd ended (none_ index value)
  | @tail state next reaches step ih =>
      obtain ⟨moved, step⟩ := step
      have holds := safeAt_of_reaches guarantees exclusive safe reaches
      have allows : rely.Allows [] state.committed next.committed := by
        rcases step with ⟨enabled, rfl⟩ | ⟨-, rfl⟩
        · exact (holds moved).allows (guarantees moved) enabled.1 fun _ _ => List.not_mem_nil
        · exact rely.refl _ _
      intro index value ended
      rcases ended.of_step step with before | ⟨-, running, shape, rfl⟩
      · exact keeps index value _ _ allows (ih index value before)
      · have commits : (state.session index).commits = true := by
          rw [Session.commits, shape]
        obtain ⟨value', shape', met⟩ := (holds index).at_commit running commits
        rw [shape] at shape'
        cases shape'
        rw [advance_committed_of_commits state index commits]
        exact establishes index value _ met

/-- Of the transactions that find something free and take it, at most one commits. -/
theorem ended_unique_of_reaches (guarantees : ∀ index, Guarantees rely (post index))
    (exclusive : first.Exclusive)
    (safe : ∀ index, SafeAt rely (outline index) (post index) first index)
    (none_ : ∀ index value, ¬ first.Ended index value) (takes : ι → α → Prop) (taken : W.Db → Prop)
    (free : ∀ index value moment, post index value moment → takes index value →
      ¬ taken moment.committed)
    (leaves : ∀ index value moment, post index value moment → takes index value → taken moment.view)
    (keeps : ∀ before after, rely.Allows [] before after → taken before → taken after)
    (reaches : ReflTransGen Step first last) :
    ∀ index value other value', last.Ended index value → takes index value →
      last.Ended other value' → takes other value' → index = other := by
  induction reaches with
  | refl => exact fun index value _ _ ended => absurd ended (none_ index value)
  | @tail state next reaches step ih =>
      obtain ⟨moved, step⟩ := step
      have holds := safeAt_of_reaches guarantees exclusive safe reaches
      have before := ended_of_reaches guarantees exclusive safe none_
        (fun index value db => takes index value → taken db) leaves
        (fun index value before after allows kept taking => keeps before after allows (kept taking))
        reaches
      have commits_free : ∀ index value, (state.session index).status = .running →
          (state.session index).program = .pure value → takes index value →
          ¬ taken state.committed := by
        intro index value running shape taking
        have commits : (state.session index).commits = true := by
          rw [Session.commits, shape]
        obtain ⟨value', shape', met⟩ := (holds index).at_commit running commits
        rw [shape] at shape'
        cases shape'
        exact free index value _ met taking
      intro index value other value' ended taking ended' taking'
      rcases ended.of_step step with earlier | ⟨rfl, running, shape, -⟩
      · rcases ended'.of_step step with earlier' | ⟨rfl, running', shape', -⟩
        · exact ih index value other value' earlier taking earlier' taking'
        · exact absurd (before index value earlier taking) (commits_free _ value' running' shape' taking')
      · rcases ended'.of_step step with earlier' | ⟨rfl, -, -, -⟩
        · exact absurd (before other value' earlier' taking') (commits_free _ value running shape taking)
        · rfl

end Ended

end State

-- As with `Program.Spec`, only the rules are used from here on.
attribute [irreducible] Safe

end Transaction
