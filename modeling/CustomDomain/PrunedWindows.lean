import CustomDomain.SlidingWindow
import Mathlib.Data.List.DropRight

/-!
# Counting with pruned stamps

A limiter keeps the stamps of a window and forgets the rest: those that have left the window, and
all but the last `limit`.  Whether the window holds `limit` stamps is still decided right.
-/

namespace SlidingWindow

section Newest

variable {α : Type} {limit : Nat} {stamp : α} {stamps : List α}

/-- The last `limit` stamps. -/
def newest (limit : Nat) (stamps : List α) : List α := stamps.rtake limit

theorem newest_sublist : (newest limit stamps).Sublist stamps := by
  rw [newest, List.rtake]
  exact List.drop_sublist _ _

theorem newest_length : (newest limit stamps).length = min limit stamps.length := by
  rw [newest, List.rtake, List.length_drop]
  omega

theorem newest_of_short (short : stamps.length ≤ limit) : newest limit stamps = stamps := by
  rw [newest, List.rtake, Nat.sub_eq_zero_of_le short, List.drop_zero]

theorem newest_cons (long : limit ≤ stamps.length) :
    newest limit (stamp :: stamps) = newest limit stamps := by
  rw [newest, newest, List.rtake, List.rtake, List.length_cons, Nat.succ_sub long,
    List.drop_succ_cons]

end Newest

variable {T : Type} [LinearOrder T] [AddCommGroup T]

/-- The stamps that are less than `width` old. -/
def recent (width now : T) (stamps : List T) : List T :=
  stamps.filter fun stamp => decide (now - stamp < width)

variable {width now later stamp : T} {limit : Nat} {stamps history : List T}

theorem mem_recent : stamp ∈ recent width now stamps ↔ stamp ∈ stamps ∧ now - stamp < width := by
  simp [recent]

theorem recent_append (first second : List T) :
    recent width now (first ++ second) = recent width now first ++ recent width now second :=
  List.filter_append ..

theorem recent_sublist : (recent width now stamps).Sublist stamps := List.filter_sublist

theorem recent_eq_within [IsOrderedAddMonoid T] (past : ∀ stamp ∈ stamps, stamp ≤ now) :
    recent width now stamps = stamps.filter fun stamp => now - width < stamp ∧ stamp ≤ now := by
  refine List.filter_congr fun stamp member => ?_
  rw [Bool.eq_iff_iff, decide_eq_true_iff, decide_eq_true_iff, sub_lt_comm]
  exact (and_iff_left (past stamp member)).symm

/-- From `now` on, the kept stamps fill a window when all stamps do. -/
def Counts (width : T) (limit : Nat) (now : T) (kept history : List T) : Prop :=
  ∀ later, now ≤ later →
    min limit (recent width later kept).length = min limit (recent width later history).length

theorem Counts.mono (counts : Counts width limit now stamps history) (order : now ≤ later) :
    Counts width limit later stamps history :=
  fun last after => counts last (order.trans after)

theorem Counts.full_iff (counts : Counts width limit now stamps history) (order : now ≤ later) :
    limit ≤ (recent width later stamps).length ↔ limit ≤ (recent width later history).length := by
  have same := counts later order
  omega

variable [IsOrderedAddMonoid T]

theorem recent_recent (order : now ≤ later) :
    recent width later (recent width now stamps) = recent width later stamps := by
  unfold recent
  rw [List.filter_filter]
  refine List.filter_congr fun stamp _ => ?_
  have closer : now - stamp ≤ later - stamp := sub_le_sub_right order stamp
  grind

/-- Of stamps in order, those after one in the window are in the window. -/
theorem recent_of_first (sorted : (stamp :: stamps).Pairwise (· ≤ ·))
    (inside : now - stamp < width) : recent width now (stamp :: stamps) = stamp :: stamps := by
  refine List.filter_eq_self.mpr fun other member => decide_eq_true ?_
  rcases List.mem_cons.mp member with rfl | after
  · exact inside
  · exact (sub_le_sub_left ((List.pairwise_cons.mp sorted).1 other after) now).trans_lt inside

/-- The last `limit` stamps suffice to see whether the window holds that many. -/
theorem recent_newest_length (sorted : stamps.Pairwise (· ≤ ·)) :
    (recent width now (newest limit stamps)).length =
      min limit (recent width now stamps).length := by
  induction stamps with
  | nil => simp [newest, recent]
  | cons stamp stamps ih =>
      by_cases inside : now - stamp < width
      · have all := recent_of_first sorted inside
        have kept : recent width now (newest limit (stamp :: stamps)) =
            newest limit (stamp :: stamps) := by
          refine List.filter_eq_self.mpr fun other member => ?_
          have among : other ∈ recent width now (stamp :: stamps) :=
            all.symm ▸ newest_sublist.mem member
          exact decide_eq_true (mem_recent.mp among).2
        rw [kept, all, newest_length]
      · have skipped : recent width now (stamp :: stamps) = recent width now stamps :=
          List.filter_cons_of_neg (by simpa using inside)
        rw [skipped]
        rcases Nat.lt_or_ge stamps.length limit with short | long
        · rw [newest_of_short (Nat.succ_le_of_lt short), skipped]
          have fewer : (recent width now stamps).length ≤ stamps.length := recent_sublist.length_le
          omega
        · rw [newest_cons long]
          exact ih (List.pairwise_cons.mp sorted).2

/-- A full list of stamps fills the window until its first stamp leaves it. -/
theorem full_iff (sorted : (stamp :: stamps).Pairwise (· ≤ ·))
    (full : (stamp :: stamps).length = limit) :
    limit ≤ (recent width now (stamp :: stamps)).length ↔ now - stamp < width := by
  constructor
  · intro many
    have all : recent width now (stamp :: stamps) = stamp :: stamps :=
      recent_sublist.eq_of_length_le (full ▸ many)
    exact (mem_recent.mp (all.symm ▸ List.mem_cons_self ..)).2
  · intro inside
    rw [recent_of_first sorted inside, full]

/-- Pruning, a new stamp and cutting to the last `limit` keep the count. -/
theorem Counts.record (counts : Counts width limit now stamps history) (order : now ≤ later)
    (sorted : stamps.Pairwise (· ≤ ·)) (past : ∀ stamp ∈ stamps, stamp ≤ now) :
    Counts width limit later (newest limit (recent width later stamps ++ [later]))
      (history ++ [later]) := by
  intro last after
  have inOrder : (recent width later stamps ++ [later]).Pairwise (· ≤ ·) := by
    refine List.pairwise_append.mpr ⟨sorted.sublist recent_sublist, List.pairwise_singleton _ _, ?_⟩
    intro first member second single
    rw [List.mem_singleton.mp single]
    exact (past first (recent_sublist.mem member)).trans order
  have same := counts last (order.trans after)
  rw [recent_newest_length inOrder, recent_append, recent_append, recent_recent after,
    List.length_append, List.length_append]
  omega

/-! ## Windows that are closed on the left -/

theorem recent_eq_since : recent width now stamps = since stamps (now - width) := by
  refine List.filter_congr fun stamp _ => ?_
  rw [Bool.eq_iff_iff, decide_eq_true_iff, decide_eq_true_iff, sub_lt_comm]

/-- No interval of `width`, closed on the left and open on the right, has more than `limit`
stamps. -/
def LimitKeptFrom (width : T) (limit : Nat) (stamps : List T) : Prop :=
  ∀ start, (stamps.filter fun stamp => start ≤ stamp ∧ stamp < start + width).length ≤ limit

theorem Admits.limitKeptFrom {after : List T} (admits : Admits width limit now stamps after)
    (capped : LimitKeptFrom width limit stamps) : LimitKeptFrom width limit after := by
  cases admits with
  | none => exact capped
  | @one stamp room later =>
      intro start
      rw [List.filter_append, List.length_append]
      by_cases inside : start ≤ stamp ∧ stamp < start + width
      · have order : now - width < start := sub_lt_iff_lt_add.mpr (later.trans_lt inside.2)
        have older : (stamps.filter fun stamp => start ≤ stamp ∧ stamp < start + width).length ≤
            (since stamps (now - width)).length :=
          (List.monotone_filter_right stamps fun other within => by
            simpa using order.trans_le (by simpa using within : start ≤ other ∧ _).1).length_le
        rw [List.filter_cons_of_pos (by simpa using inside), List.filter_nil]
        exact older.trans_lt room
      · rw [List.filter_cons_of_neg (by simpa using inside), List.filter_nil]
        exact capped start

end SlidingWindow
