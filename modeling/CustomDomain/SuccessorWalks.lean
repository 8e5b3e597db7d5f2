import Mathlib.Data.List.Basic
import Mathlib.Tactic.Common

/-!
# Walks along a partial successor function

A walk that remembers what it visited stops at its goal, at a bound, where there is no successor
and at the first repetition. It still meets every goal that the successors lead to within the
bound, since a repetition closes the visited values under the successor.
-/

namespace SuccessorWalk

variable {α : Type*} (next : α → Option α)

/-- The value `count` successors after `current`. -/
def follow : Nat → α → Option α
  | 0, current => some current
  | count + 1, current => (next current).bind (follow count)

@[simp] theorem follow_zero (current : α) : follow next 0 current = some current := rfl

theorem follow_succ (count : Nat) (current : α) :
    follow next (count + 1) current = (next current).bind (follow next count) := rfl

variable {next}

theorem follow_of_step {current successor : α} (step : next current = some successor)
    (count : Nat) : follow next (count + 1) current = follow next count successor := by
  rw [follow_succ, step, Option.bind_some]

theorem follow_of_stop {current : α} (stop : next current = none) (count : Nat) :
    follow next (count + 1) current = none := by
  rw [follow_succ, stop, Option.bind_none]

/-- The successors of values that are closed under the successor stay among them. -/
theorem follow_mem_of_closed {visited : List α}
    (closed : ∀ value ∈ visited, ∀ successor, next value = some successor → successor ∈ visited)
    (count : Nat) {current goal : α} (inside : current ∈ visited)
    (reached : follow next count current = some goal) : goal ∈ visited := by
  induction count generalizing current with
  | zero =>
      cases reached
      exact inside
  | succ count ih =>
      cases step : next current with
      | none =>
          rw [follow_of_stop step] at reached
          cases reached
      | some successor =>
          rw [follow_of_step step] at reached
          exact ih (closed current inside successor step) reached

/-- Of the visited values, only `current` may lead to a value that is not visited. -/
def Explored (next : α → Option α) (visited : List α) (current : α) : Prop :=
  ∀ value ∈ visited, value = current ∨
    ∀ successor, next value = some successor → successor ∈ visited

theorem Explored.step {visited : List α} {current successor : α}
    (explored : Explored next visited current) (step : next current = some successor) :
    Explored next (visited ++ [successor]) successor := by
  intro value member
  rcases List.mem_append.mp member with old | new
  · right
    intro following fromValue
    rcases explored value old with same | known
    · rw [same, step] at fromValue
      cases fromValue
      exact List.mem_append_right _ (List.mem_singleton_self _)
    · exact List.mem_append_left _ (known following fromValue)
  · exact .inl (List.mem_singleton.mp new)

/-- A repetition leaves nothing to discover. -/
theorem Explored.not_reached {visited : List α} {current successor goal : α}
    (explored : Explored next visited current) (step : next current = some successor)
    (repeated : successor ∈ visited ∨ successor = current) (fresh : goal ∉ visited)
    (differs : current ≠ goal) (count : Nat) : follow next count successor ≠ some goal := by
  intro reached
  have closed : ∀ value ∈ current :: visited, ∀ following, next value = some following →
      following ∈ current :: visited := by
    intro value member following fromValue
    have onCurrent (same : value = current) : following ∈ current :: visited := by
      rw [same, step] at fromValue
      cases fromValue
      rcases repeated with old | self
      · exact List.mem_cons_of_mem _ old
      · exact self ▸ List.mem_cons_self ..
    rcases List.mem_cons.mp member with same | old
    · exact onCurrent same
    · rcases explored value old with same | known
      · exact onCurrent same
      · exact List.mem_cons_of_mem _ (known following fromValue)
  have inside : successor ∈ current :: visited := by
    rcases repeated with old | self
    · exact List.mem_cons_of_mem _ old
    · exact self ▸ List.mem_cons_self ..
  rcases List.mem_cons.mp (follow_mem_of_closed closed count inside reached) with same | old
  · exact differs same.symm
  · exact fresh old

variable [DecidableEq α] (next)

/-- The values visited from `current`, after those of `visited`. -/
def walk (stopAt : α) : Nat → List α → α → List α
  | 0, visited, _ => visited
  | steps + 1, visited, current =>
      match next current with
      | none => visited
      | some successor =>
          if successor ∈ visited ∨ successor = current then visited
          else if successor = stopAt then visited ++ [successor]
          else walk stopAt steps (visited ++ [successor]) successor

variable {next}

theorem prefix_walk (stopAt : α) (steps : Nat) (visited : List α) (current : α) :
    visited <+: walk next stopAt steps visited current := by
  induction steps generalizing visited current with
  | zero => exact List.prefix_refl visited
  | succ steps ih =>
      rw [walk]
      split
      next => exact List.prefix_refl visited
      next successor _ =>
        split
        next => exact List.prefix_refl visited
        next =>
          split
          next => exact List.prefix_append visited [successor]
          next => exact (List.prefix_append visited [successor]).trans (ih _ successor)

/-- The walk meets its goal exactly when the successors lead there within the bound. -/
theorem mem_walk_iff {goal : α} (steps : Nat) {visited : List α} {current : α}
    (explored : Explored next visited current) (fresh : goal ∉ visited)
    (differs : current ≠ goal) :
    goal ∈ walk next goal steps visited current ↔
      ∃ count ≤ steps, follow next count current = some goal := by
  induction steps generalizing visited current with
  | zero =>
      constructor
      · exact fun member => absurd member fresh
      · rintro ⟨count, bound, reached⟩
        rw [Nat.le_zero.mp bound, follow_zero] at reached
        exact absurd (Option.some.inj reached) differs
  | succ steps ih =>
      have shifted : (∃ count ≤ steps + 1, follow next count current = some goal) ↔
          ∃ count ≤ steps, follow next (count + 1) current = some goal := by
        constructor
        · rintro ⟨count, bound, reached⟩
          cases count with
          | zero => exact absurd (Option.some.inj reached) differs
          | succ count => exact ⟨count, by omega, reached⟩
        · rintro ⟨count, bound, reached⟩
          exact ⟨count + 1, by omega, reached⟩
      rw [shifted, walk]
      cases step : next current with
      | none =>
          simp only [follow_of_stop step]
          exact ⟨fun member => absurd member fresh, fun ⟨_, _, impossible⟩ => nomatch impossible⟩
      | some successor =>
          simp only [follow_of_step step]
          split
          next repeated =>
            constructor
            · exact fun member => absurd member fresh
            · rintro ⟨count, _, reached⟩
              exact absurd reached (explored.not_reached step repeated fresh differs count)
          next novel =>
            split
            next arrived =>
              subst arrived
              exact ⟨fun _ => ⟨0, Nat.zero_le _, rfl⟩, fun _ => by simp⟩
            next other =>
              refine ih (explored.step step) ?_ other
              rw [List.mem_append, List.mem_singleton, not_or]
              exact ⟨fresh, fun same => other same.symm⟩

/-- The walk visits nothing exactly when there is no first successor other than the start. -/
theorem walk_eq_nil_iff (stopAt : α) (steps : Nat) (current : α) :
    walk next stopAt (steps + 1) [] current = [] ↔
      next current = none ∨ next current = some current := by
  rw [walk]
  cases step : next current with
  | none => simp
  | some successor =>
      simp only [List.not_mem_nil, false_or, List.nil_append, reduceCtorEq, Option.some.injEq]
      constructor
      · intro empty
        split at empty
        next self => exact self
        next =>
          split at empty
          next => cases empty
          next =>
            have visited : [successor] <+: walk next stopAt steps [successor] successor :=
              prefix_walk stopAt steps [successor] successor
            rw [empty] at visited
            exact absurd (List.prefix_nil.mp visited) (List.cons_ne_nil _ _)
      · exact fun self => if_pos self

end SuccessorWalk
