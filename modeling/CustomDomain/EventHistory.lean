import Mathlib.Data.List.Induction

/-!
# Histories of events

A state that is told by its events: `apply` is what one event makes of it, and
`allows` says which events may come next.  What holds at the start and is kept
by every allowed event holds after any history of them.
-/

namespace EventHistory

/-- A list with one more element, cut in two. -/
theorem split_concat {α : Type} {items before after : List α} {item last : α} :
    items ++ [last] = before ++ item :: after ↔
      (∃ rest, after = rest ++ [last] ∧ items = before ++ item :: rest) ∨
        (after = [] ∧ item = last ∧ items = before) := by
  constructor
  · intro same
    rcases List.eq_nil_or_concat after with rfl | ⟨rest, final, rfl⟩
    · obtain ⟨same, last⟩ := List.append_inj' same rfl
      exact .inr ⟨rfl, by simpa using last.symm, same⟩
    · rw [List.concat_eq_append, ← List.cons_append, ← List.append_assoc] at same
      obtain ⟨same, last⟩ := List.append_inj' same rfl
      simp only [List.cons.injEq, and_true] at last
      exact .inl ⟨rest, by simp [last], same⟩
  · rintro (⟨rest, rfl, rfl⟩ | ⟨rfl, rfl, rfl⟩)
    · simp
    · rfl

variable {σ ε : Type} (apply : σ → ε → σ) (allows : σ → ε → Prop)

/-- Every event is allowed in the state the ones before it lead to. -/
def Allowed : σ → List ε → Prop
  | _, [] => True
  | state, event :: events => allows state event ∧ Allowed (apply state event) events

variable {apply allows}

theorem Allowed.append {state : σ} {first second : List ε} (left : Allowed apply allows state first)
    (right : Allowed apply allows (first.foldl apply state) second) :
    Allowed apply allows state (first ++ second) := by
  induction first generalizing state with
  | nil => exact right
  | cons event events ih => exact ⟨left.1, ih left.2 right⟩

theorem Allowed.of_concat {state : σ} {events : List ε} {event : ε}
    (allowed : Allowed apply allows state (events ++ [event])) :
    Allowed apply allows state events ∧ allows (events.foldl apply state) event := by
  induction events generalizing state with
  | nil => exact ⟨trivial, allowed.1⟩
  | cons first events ih => exact ⟨⟨allowed.1, (ih allowed.2).1⟩, (ih allowed.2).2⟩

/-- Induction over a history: `holds` relates the state reached with the events
that led to it. -/
theorem Allowed.keeps {state : σ} {events : List ε} (allowed : Allowed apply allows state events)
    (holds : σ → List ε → Prop) (start : holds state [])
    (step : ∀ reached past event, holds reached past → allows reached event →
      holds (apply reached event) (past ++ [event])) :
    holds (events.foldl apply state) events := by
  induction events using List.reverseRecOn with
  | nil => exact start
  | append_singleton past event ih =>
      rw [List.foldl_append]
      exact step _ past event (ih allowed.of_concat.1) allowed.of_concat.2

end EventHistory
