import Mathlib.Logic.Basic
import Mathlib.Data.List.Basic

/-!
# Database transactions as programs

A transaction body is a tree of statements.  Each statement reads the rows
that are visible when it runs and may lock rows and leave a pending change.
The same tree has two meanings: this file runs it alone, from its first
statement to its end, and `TransactionInterleaving` runs it statement by
statement among other transactions.

Nothing here depends on a particular schema.
-/

namespace Transaction

/-- What a family of transactions works on: the stored rows, the names of the
rows that can be locked, the errors a body can raise, and the effects it can
have outside the database. -/
structure World where
  Db : Type
  Row : Type
  Error : Type
  Effect : Type

/-- A transaction body.  A `write` names the rows it locks and the change it
leaves pending, both decided from the rows visible when it runs; an `emit`
takes effect outside the database at once. -/
inductive Program (W : World) (α : Type) : Type where
  | pure (value : α)
  | raise (error : W.Error)
  | select (next : W.Db → Program W α)
  | write (rows : W.Db → List W.Row) (change : W.Db → W.Db → W.Db)
      (next : W.Db → Program W α)
  | emit (effect : W.Effect) (next : Program W α)

namespace Program

variable {W : World} {α β : Type}

def bind : Program W α → (α → Program W β) → Program W β
  | .pure value, rest => rest value
  | .raise error, _ => .raise error
  | .select next, rest => .select fun db => bind (next db) rest
  | .write rows change next, rest => .write rows change fun db => bind (next db) rest
  | .emit effect next, rest => .emit effect (bind next rest)

instance : Monad (Program W) where
  pure := Program.pure
  bind := Program.bind

theorem bind_pure_right (program : Program W α) :
    program.bind Program.pure = program := by
  induction program with
  | pure value => rfl
  | raise error => rfl
  | select next ih => simp only [bind, ih]
  | write rows change next ih => simp only [bind, ih]
  | emit effect next ih => simp only [bind, ih]

theorem bind_bind {γ : Type} (program : Program W α) (first : α → Program W β)
    (second : β → Program W γ) :
    (program.bind first).bind second =
      program.bind fun value => (first value).bind second := by
  induction program with
  | pure value => rfl
  | raise error => rfl
  | select next ih => simp only [bind, ih]
  | write rows change next ih => simp only [bind, ih]
  | emit effect next ih => simp only [bind, ih]

instance : LawfulMonad (Program W) :=
  LawfulMonad.mk' (Program W) bind_pure_right (fun _ _ => rfl) bind_bind

/-- Read the visible rows. -/
def read (query : W.Db → α) : Program W α :=
  .select fun db => .pure (query db)

/-- Refuse unless the condition holds. -/
def require (condition : Prop) [Decidable condition] (error : W.Error) : Program W Unit :=
  if condition then .pure () else .raise error

/-- Python's `try`/`except`: the handler may take over a raised error.  What
was written before the error stays pending. -/
def tryCatch : Program W α → (W.Error → Program W α) → Program W α
  | .pure value, _ => .pure value
  | .raise error, handler => handler error
  | .select next, handler => .select fun db => tryCatch (next db) handler
  | .write rows change next, handler =>
      .write rows change fun db => tryCatch (next db) handler
  | .emit effect next, handler => .emit effect (tryCatch next handler)

/-- Run one body per element, in order, threading an accumulator. -/
def foldEach {ι σ : Type} : List ι → σ → (σ → ι → Program W σ) → Program W σ
  | [], state, _ => .pure state
  | item :: items, state, body => body state item >>= fun state => foldEach items state body

/-- The body run alone: how it ends, and the rows as it leaves them. -/
def run : Program W α → W.Db → Except W.Error α × W.Db
  | .pure value, db => (.ok value, db)
  | .raise error, db => (.error error, db)
  | .select next, db => run (next db) db
  | .write _ change next, db => run (next db) (change db db)
  | .emit _ next, db => run next db

/-- The transaction as one atomic step: a body that raises is rolled back. -/
def transact (program : Program W α) (db : W.Db) : W.Db :=
  match program.run db with
  | (.ok _, after) => after
  | (.error _, _) => db

section Run

variable (db : W.Db)

@[simp] theorem run_pure (value : α) :
    (Pure.pure value : Program W α).run db = (.ok value, db) := rfl

@[simp] theorem run_raise (error : W.Error) :
    (Program.raise error : Program W α).run db = (.error error, db) := rfl

@[simp] theorem run_select (next : W.Db → Program W α) :
    (Program.select next).run db = (next db).run db := rfl

@[simp] theorem run_write (rows : W.Db → List W.Row) (change : W.Db → W.Db → W.Db)
    (next : W.Db → Program W α) :
    (Program.write rows change next).run db = (next db).run (change db db) := rfl

@[simp] theorem run_emit (effect : W.Effect) (next : Program W α) :
    (Program.emit effect next).run db = next.run db := rfl

@[simp] theorem run_read (query : W.Db → α) : (read query).run db = (.ok (query db), db) := rfl

theorem run_bind (program : Program W α) (rest : α → Program W β) :
    (program >>= rest).run db =
      match program.run db with
      | (.ok value, after) => (rest value).run after
      | (.error error, after) => (.error error, after) := by
  change (program.bind rest).run db = _
  induction program generalizing db with
  | pure value => rfl
  | raise error => rfl
  | select next ih => simpa only [bind, run_select] using ih db db
  | write rows change next ih => simpa only [bind, run_write] using ih db (change db db)
  | emit effect next ih => simpa only [bind, run_emit] using ih db

theorem run_tryCatch (program : Program W α) (handler : W.Error → Program W α) :
    (program.tryCatch handler).run db =
      match program.run db with
      | (.ok value, after) => (.ok value, after)
      | (.error error, after) => (handler error).run after := by
  induction program generalizing db with
  | pure value => rfl
  | raise error => rfl
  | select next ih => simpa only [tryCatch, run_select] using ih db db
  | write rows change next ih => simpa only [tryCatch, run_write] using ih db (change db db)
  | emit effect next ih => simpa only [tryCatch, run_emit] using ih db

theorem transact_of_ok {program : Program W α} {db after : W.Db} {value : α}
    (ran : program.run db = (.ok value, after)) : program.transact db = after := by
  simp only [transact, ran]

theorem transact_of_error {program : Program W α} {db after : W.Db} {error : W.Error}
    (ran : program.run db = (.error error, after)) : program.transact db = db := by
  simp only [transact, ran]

end Run

/-! ## Pre- and postconditions -/

/-- Run from `db`, the body ends in `post` if it returns and in `fail` if it
raises. -/
def Spec (program : Program W α) (db : W.Db) (post : α → W.Db → Prop)
    (fail : W.Error → W.Db → Prop) : Prop :=
  match program.run db with
  | (.ok value, after) => post value after
  | (.error error, after) => fail error after

/-- The body returns, in a state that satisfies `post`. -/
abbrev Returns (program : Program W α) (db : W.Db) (post : α → W.Db → Prop) : Prop :=
  program.Spec db post fun _ _ => False

/-- If the body returns, then in a state that satisfies `post`. -/
abbrev Ensures (program : Program W α) (db : W.Db) (post : α → W.Db → Prop) : Prop :=
  program.Spec db post fun _ _ => True

namespace Spec

variable {program : Program W α} {rest : α → Program W β} {db : W.Db}
  {post post' : α → W.Db → Prop} {fail fail' : W.Error → W.Db → Prop}

theorem mono (spec : program.Spec db post fail)
    (returned : ∀ value after, post value after → post' value after)
    (raised : ∀ error after, fail error after → fail' error after) :
    program.Spec db post' fail' := by
  unfold Spec at spec ⊢
  split at spec
  next value after ran => exact returned value after spec
  next error after ran => exact raised error after spec

theorem weaken (spec : program.Spec db post fail)
    (returned : ∀ value after, post value after → post' value after) :
    program.Spec db post' fail :=
  spec.mono returned fun _ _ holds => holds

/-- Two specifications of one run. -/
theorem and (first : program.Spec db post fail) (second : program.Spec db post' fail') :
    program.Spec db (fun value after => post value after ∧ post' value after)
      fun error after => fail error after ∧ fail' error after := by
  unfold Spec at first second ⊢
  split at first
  next value after ran =>
    rw [ran] at second
    exact ⟨first, second⟩
  next error after ran =>
    rw [ran] at second
    exact ⟨first, second⟩

theorem bind {next : β → W.Db → Prop} (first : program.Spec db post fail)
    (second : ∀ value after, post value after → (rest value).Spec after next fail) :
    (program >>= rest).Spec db next fail := by
  unfold Spec at first ⊢
  rw [run_bind]
  split at first
  next value after ran => exact second value after first
  next error after ran => exact first

/-- A body that returns, whatever the rest may raise. -/
theorem andThen {next : β → W.Db → Prop} (first : program.Returns db post)
    (second : ∀ value after, post value after → (rest value).Spec after next fail) :
    (program >>= rest).Spec db next fail :=
  (first.mono (fun _ _ holds => holds) fun _ _ never => never.elim).bind second

theorem tryCatch {handler : W.Error → Program W α} (first : program.Spec db post fail')
    (second : ∀ error after, fail' error after → (handler error).Spec after post fail) :
    (program.tryCatch handler).Spec db post fail := by
  unfold Spec at first ⊢
  rw [run_tryCatch]
  split at first
  next value after ran => exact first
  next error after ran => exact second error after first

theorem returns (spec : program.Returns db post) :
    ∃ value after, program.run db = (.ok value, after) := by
  unfold Returns Spec at spec
  split at spec
  next value after ran => exact ⟨value, after, ran⟩
  next => exact spec.elim

theorem result (spec : program.Spec db post fail) {value : α} {after : W.Db}
    (ran : program.run db = (.ok value, after)) : post value after := by
  unfold Spec at spec
  rwa [ran] at spec

theorem failure (spec : program.Spec db post fail) {error : W.Error} {after : W.Db}
    (ran : program.run db = (.error error, after)) : fail error after := by
  unfold Spec at spec
  rwa [ran] at spec

theorem of_run {value : α} {after : W.Db} (ran : program.run db = (.ok value, after))
    (holds : post value after) : program.Spec db post fail := by
  unfold Spec
  rw [ran]
  exact holds

theorem of_pure {value : α} (holds : post value db) :
    (Program.pure value : Program W α).Spec db post fail :=
  holds

theorem of_raise {error : W.Error} (holds : fail error db) :
    (Program.raise error : Program W α).Spec db post fail :=
  holds

theorem of_select {next : W.Db → Program W α} (spec : (next db).Spec db post fail) :
    (Program.select next).Spec db post fail :=
  spec

theorem of_write {rows : W.Db → List W.Row} {change : W.Db → W.Db → W.Db}
    {next : W.Db → Program W α} (spec : (next db).Spec (change db db) post fail) :
    (Program.write rows change next).Spec db post fail :=
  spec

theorem readThen {query : W.Db → α} {next : β → W.Db → Prop}
    (second : (rest (query db)).Spec db next fail) : (read query >>= rest).Spec db next fail :=
  second

theorem requireThen {condition : Prop} {decision : Decidable condition} {error : W.Error}
    {rest : Unit → Program W β} {next : β → W.Db → Prop}
    (met : condition → (rest ()).Spec db next fail) (refused : ¬ condition → fail error db) :
    (require condition error >>= rest).Spec db next fail := by
  by_cases holds : condition
  · rw [require, if_pos holds]
    exact met holds
  · rw [require, if_neg holds]
    exact refused holds

/-- A loop keeps whatever each of its rounds keeps. -/
theorem foldEach {ι σ : Type} {items : List ι} {state : σ} {body : σ → ι → Program W σ}
    {fail : W.Error → W.Db → Prop} (invariant : σ → W.Db → Prop)
    (start : invariant state db)
    (round : ∀ state item db, item ∈ items → invariant state db →
      (body state item).Spec db invariant fail) :
    (foldEach items state body).Spec db invariant fail := by
  induction items generalizing state db with
  | nil => exact of_pure start
  | cons item items ih =>
      refine bind (round state item db (by simp) start) ?_
      intro state after holds
      exact ih holds fun state item db member => round state item db (by simp [member])

/-- A transaction that ensures `holds`, from rows that satisfy it. -/
theorem transact {holds : W.Db → Prop} (before : holds db)
    (spec : program.Spec db (fun _ after => holds after) fail) :
    holds (program.transact db) := by
  unfold Spec at spec
  unfold Program.transact
  split at spec
  next value after ran => exact spec
  next error after ran => exact before

end Spec

-- From here on a specification is used through its rules only: unfolding it
-- would run the body.
attribute [irreducible] Spec

end Program

end Transaction
