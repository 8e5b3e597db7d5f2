import Mathlib.Algebra.Order.Group.Defs
import Mathlib.Algebra.Order.Sub.Basic
import Mathlib.Data.List.MinMax

/-!
# Limits over a sliding window

A ledger of stamps grows by one stamp at a time, and an entry is admitted only
when fewer than `limit` stamps lie after `now - width`.  The stamp that is
written may be later than the clock `now` the entry was admitted with, and
clocks may be out of order.
-/

namespace SlidingWindow

variable {T : Type} [LinearOrder T] {width now clock stamp : T} {limit : Nat}
  {stamps before after : List T}

/-- The stamps after `start`. -/
def since (stamps : List T) (start : T) : List T :=
  stamps.filter (start < ·)

theorem since_anti {early late : T} (order : early ≤ late) :
    (since stamps late).length ≤ (since stamps early).length :=
  (List.monotone_filter_right stamps fun stamp after => by
    simpa using order.trans_lt (by simpa using after)).length_le

variable [AddCommGroup T]

/-- The stamps in the half-open window that ends `width` after `start`. -/
def within (stamps : List T) (start width : T) : List T :=
  stamps.filter fun stamp => start < stamp ∧ stamp ≤ start + width

/-- Every window has at most `limit` stamps. -/
def LimitKept (width : T) (limit : Nat) (stamps : List T) : Prop :=
  ∀ start, (within stamps start width).length ≤ limit

theorem LimitKept.of_length (few : stamps.length ≤ limit) : LimitKept width limit stamps :=
  fun _ => (List.length_filter_le _ _).trans few

/-- The ledger stays as it is, or one entry is admitted. -/
inductive Admits (width : T) (limit : Nat) (now : T) (before : List T) : List T → Prop where
  | none : Admits width limit now before before
  | one {stamp : T} (room : (since before (now - width)).length < limit) (later : now ≤ stamp) :
      Admits width limit now before (before ++ [stamp])

theorem within_le_since {start : T} (order : now - width ≤ start) :
    (within stamps start width).length ≤ (since stamps (now - width)).length :=
  (List.monotone_filter_right stamps fun stamp inside => by
    simpa using order.trans_lt (by simpa using inside : start < stamp ∧ _).1).length_le

variable [IsOrderedAddMonoid T]

/-- A window that takes in the new stamp starts after `now - width`, so all its
older stamps were counted. -/
theorem Admits.limitKept (admits : Admits width limit now before after)
    (capped : LimitKept width limit before) : LimitKept width limit after := by
  cases admits with
  | none => exact capped
  | @one stamp room later =>
      intro start
      unfold within
      rw [List.filter_append, List.length_append]
      by_cases inside : start < stamp ∧ stamp ≤ start + width
      · have order : now - width ≤ start := sub_le_iff_le_add.mpr (later.trans inside.2)
        have older := lt_of_le_of_lt (within_le_since order) room
        rw [List.filter_cons_of_pos (by simpa using inside), List.filter_nil]
        exact older
      · rw [List.filter_cons_of_neg (by simpa using inside), List.filter_nil]
        exact capped start

/-- With clocks in order, the next one finds no more than the limit. -/
theorem Admits.counted (admits : Admits width limit now before after) (order : clock ≤ now)
    (counted : (since before (clock - width)).length ≤ limit) :
    (since after (now - width)).length ≤ limit := by
  cases admits with
  | none => exact (since_anti (sub_le_sub_right order width)).trans counted
  | one room later =>
      unfold since at *
      rw [List.filter_append, List.length_append]
      exact (Nat.add_le_add_left (List.length_filter_le _ _) _).trans room

/-- Once the oldest stamp that was counted has left the window, there is room
again. -/
theorem room_after_oldest {oldest : T} (counted : (since stamps (now - width)).length ≤ limit)
    (first : (since stamps (now - width)).min? = some oldest) (waited : oldest + width ≤ clock) :
    (since stamps (clock - width)).length < limit := by
  have gone : oldest ≤ clock - width := le_sub_iff_add_le.mpr waited
  have member : oldest ∈ since stamps (now - width) := List.min?_mem first
  have order : now - width ≤ clock - width := by
    have after : now - width < oldest := by simpa using (List.mem_filter.mp member).2
    exact after.le.trans gone
  have fewer : since stamps (clock - width) =
      (since stamps (now - width)).filter (clock - width < ·) := by
    unfold since
    rw [List.filter_filter]
    refine List.filter_congr fun stamp _ => ?_
    by_cases late : clock - width < stamp
    · simp [late, order.trans_lt late]
    · simp [late]
  have lost : (since stamps (clock - width)).length < (since stamps (now - width)).length := by
    rw [fewer]
    exact List.length_filter_lt_length_iff_exists.mpr ⟨oldest, member, by simpa using gone⟩
  exact lt_of_lt_of_le lost counted

/-- The stamps are at least `gap` apart, each after those before it. -/
def Apart (gap : T) (stamps : List T) : Prop :=
  stamps.Pairwise fun first second => first + gap ≤ second

theorem Apart.append {gap : T} (apart : Apart gap stamps)
    (latest : ∀ last, stamps.max? = some last → last + gap ≤ stamp) :
    Apart gap (stamps ++ [stamp]) := by
  refine List.pairwise_append.mpr ⟨apart, List.pairwise_singleton _ _, ?_⟩
  intro first member second last
  rw [List.mem_singleton.mp last]
  cases found : stamps.max? with
  | none =>
      rw [List.max?_eq_none_iff.mp found] at member
      cases member
  | some maximum =>
      have below : first ≤ maximum := (List.max?_eq_some_iff.mp found).2 first member
      exact (add_le_add_left below gap).trans (latest maximum found)

end SlidingWindow
