import CustomDomain.DomainService
import CustomDomain.TransactionRely

/-!
# `acquire_lock` among other transactions

Rows of `edge_locks` are created on first use and never removed by the
transactions that share a lock.  That is enough for `acquire_lock` to hold the
row when it returns, whoever creates it: the first `UPDATE` finds it, or the
`INSERT` creates it, or another transaction has committed it in between and the
second `UPDATE` finds it.
-/

namespace CustomDomain

open Transaction

/-- Every lock row of `before` is still there. -/
def KeepsLocks (before after : Database) : Prop :=
  ∀ name, hasEdgeLock before name = true → hasEdgeLock after name = true

/-- A change of the lock rows alone, none of which it removes. -/
structure TouchesLocks (change : Database → Database) : Prop where
  rows : ∀ db, ∃ locks, change db = { db with edgeLocks := locks }
  keeps : ∀ db, KeepsLocks db (change db)
  mono : ∀ before after, KeepsLocks before after → KeepsLocks (change before) (change after)

theorem TouchesLocks.id : TouchesLocks fun db => db :=
  ⟨fun db => ⟨db.edgeLocks, rfl⟩, fun _ _ present => present, fun _ _ keeps => keeps⟩

theorem TouchesLocks.comp {first second : Database → Database} (touches : TouchesLocks first)
    (touches' : TouchesLocks second) : TouchesLocks (second ∘ first) where
  rows db := by
    obtain ⟨locks, changed⟩ := touches.rows db
    obtain ⟨locks', changed'⟩ := touches'.rows (first db)
    refine ⟨locks', ?_⟩
    rw [Function.comp, changed', changed]
  keeps db name present := touches'.keeps _ name (touches.keeps db name present)
  mono before after keeps := touches'.mono _ _ (touches.mono before after keeps)

/-- The `UPDATE` of a lock row. -/
def holdLock (name : String) (holder : Option String) (db : Database) : Database :=
  { db with
    edgeLocks := db.edgeLocks.map fun lock =>
      if lock.name = name then { lock with holder := holder } else lock }

theorem hasEdgeLock_holdLock (db : Database) (name other : String) (holder : Option String) :
    hasEdgeLock (holdLock name holder db) other = hasEdgeLock db other := by
  unfold hasEdgeLock holdLock
  rw [List.any_map]
  congr 1
  funext lock
  dsimp only [Function.comp]
  split <;> rfl

theorem holdLock_touches (name : String) (holder : Option String) :
    TouchesLocks (holdLock name holder) where
  rows db := ⟨_, rfl⟩
  keeps db other present := by rwa [hasEdgeLock_holdLock]
  mono before after keeps other present := by
    rw [hasEdgeLock_holdLock] at present ⊢
    exact keeps other present

/-- The `INSERT` of a lock row. -/
def addLock (name : String) (db : Database) : Database :=
  { db with edgeLocks := db.edgeLocks ++ [{ name := name }] }

theorem hasEdgeLock_addLock (db : Database) (name other : String) :
    hasEdgeLock (addLock name db) other = (hasEdgeLock db other || name == other) := by
  simp [hasEdgeLock, addLock]

theorem addLock_touches (name : String) : TouchesLocks (addLock name) where
  rows db := ⟨_, rfl⟩
  keeps db other present := by rw [hasEdgeLock_addLock, present, Bool.true_or]
  mono before after keeps other present := by
    rw [hasEdgeLock_addLock, Bool.or_eq_true] at present ⊢
    exact present.imp_left (keeps other)

theorem acquireLock_within {error : ServiceError → Prop} (name holder : String) :
    (acquireLock name holder).Within TouchesLocks error := by
  have update : ∀ holder, (updateEdgeLock name holder).Within TouchesLocks error := by
    refine fun holder view => ⟨?_, trivial⟩
    dsimp only
    split
    next => exact holdLock_touches name _
    next => exact .id
  have insert : (insertEdgeLock name).Within TouchesLocks error := by
    refine fun view => ⟨?_, trivial⟩
    dsimp only
    split
    next => exact .id
    next => exact addLock_touches name
  refine (update _).bind fun matched => ?_
  cases matched with
  | true => exact trivial
  | false => exact insert.bind fun _ => (update _).bind fun _ => trivial

/-- An invariant a transaction can carry while it takes a lock. -/
structure SurvivesLocking (rely : Rely store) (invariant : Moment store → Prop) : Prop where
  grows : ∀ locks before after, rely.Allows locks before after → KeepsLocks before after
  pending : ∀ moment, invariant moment → ∀ before after, KeepsLocks before after →
    KeepsLocks (moment.pending before) (moment.pending after)
  later : ∀ moment db, invariant moment → rely.Allows moment.locks moment.committed db →
    invariant (moment.later db)
  written : ∀ moment rows change, invariant moment → TouchesLocks (change moment.view) →
    invariant (moment.written rows change)

section AcquireLock

variable {rely : Rely store} {outline : Outline store} {moment : Moment store}
  {invariant : Moment store → Prop}

/-- The row is held already, or it is there to be taken. -/
def Obtainable (name : String) (moment : Moment store) : Prop :=
  Row.edgeLock name ∈ moment.locks ∨ hasEdgeLock moment.view name = true

theorem Obtainable.later {name : String} (obtainable : Obtainable name moment)
    (survives : SurvivesLocking rely invariant) (holds : invariant moment) {db : Database}
    (allows : rely.Allows moment.locks moment.committed db) :
    Obtainable name (moment.later db) :=
  obtainable.imp_right fun present =>
    survives.pending moment holds _ _ (survives.grows _ _ _ allows) name present

theorem updateEdgeLock_safe (survives : SurvivesLocking rely invariant) (name holder : String)
    (holds : invariant moment) :
    Safe rely outline
      (fun matched after => invariant after ∧
        (matched = true ∨ Obtainable name moment → Row.edgeLock name ∈ after.locks))
      (updateEdgeLock name holder) moment := by
  refine Safe.of_write fun db allows => ?_
  have now := survives.later moment db holds allows
  have obtainable := fun before : Obtainable name moment => before.later survives holds allows
  have touches : TouchesLocks fun stored =>
      if hasEdgeLock (moment.later db).view name then holdLock name (some holder) stored
      else stored := by
    split
    next => exact holdLock_touches name _
    next => exact .id
  refine Safe.of_pure fun db' allows' => ?_
  refine ⟨survives.later _ db' (survives.written _ _ _ now touches) allows', ?_⟩
  intro found
  cases present : hasEdgeLock (moment.later db).view name with
  | true => exact List.mem_append_right _ (by simp [present])
  | false =>
      rcases found with matched | before
      · exact absurd (matched.symm.trans present) (by simp)
      · rcases obtainable before with held | seen
        · exact List.mem_append_left _ held
        · exact absurd (seen.symm.trans present) (by simp)

theorem insertEdgeLock_safe (survives : SurvivesLocking rely invariant) (name : String)
    (holds : invariant moment) :
    Safe rely outline (fun _ after => invariant after ∧ Obtainable name after)
      (insertEdgeLock name) moment := by
  refine Safe.of_write fun db allows => ?_
  have now := survives.later moment db holds allows
  have touches : TouchesLocks fun stored =>
      if hasEdgeLock (moment.later db).view name then stored else addLock name stored := by
    split
    next => exact .id
    next => exact addLock_touches name
  refine Safe.of_pure fun db' allows' => ?_
  have kept := survives.written (moment.later db)
    (fun view => if hasEdgeLock view name then [] else [Row.edgeLock name])
    (fun view stored => if hasEdgeLock view name then stored else addLock name stored) now touches
  refine ⟨survives.later _ db' kept allows', ?_⟩
  refine Obtainable.later ?_ survives kept allows'
  cases present : hasEdgeLock (moment.later db).view name with
  | true =>
      right
      change hasEdgeLock (if hasEdgeLock (moment.later db).view name then
        (moment.later db).view else addLock name (moment.later db).view) name = true
      rw [if_pos present]
      exact present
  | false =>
      left
      simp [Moment.written, present]

/-- `acquire_lock` holds the row when it returns. -/
theorem acquireLock_safe (survives : SurvivesLocking rely invariant) (name holder : String)
    (holds : invariant moment) :
    Safe rely outline (fun _ after => invariant after ∧ Row.edgeLock name ∈ after.locks)
      (acquireLock name holder) moment := by
  unfold acquireLock
  refine (updateEdgeLock_safe survives name _ holds).bind ?_
  rintro matched after ⟨kept, held⟩
  cases matched with
  | true =>
      exact Safe.of_pure fun db allows =>
        ⟨survives.later _ db kept allows, held (.inl rfl)⟩
  | false =>
      refine (insertEdgeLock_safe survives name kept).bind ?_
      rintro _ inserted ⟨kept, obtainable⟩
      refine (updateEdgeLock_safe survives name _ kept).bind ?_
      rintro _ updated ⟨kept, held⟩
      exact Safe.of_pure fun db allows =>
        ⟨survives.later _ db kept allows, held (.inr obtainable)⟩

end AcquireLock

end CustomDomain
