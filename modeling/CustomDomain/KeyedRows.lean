import Mathlib.Data.List.Nodup

/-!
# Rows found by a key

A table as a list of rows, each of which carries a key: what a lookup by key
finds, and what an update of the row under one key leaves to be found.
-/

namespace KeyedRows

variable {ρ κ : Type} [DecidableEq κ] (key : ρ → κ)

/-- The row under a key. -/
def lookup (rows : List ρ) (at_ : κ) : Option ρ :=
  rows.find? fun row => key row = at_

/-- Change the row under a key. -/
def update (rows : List ρ) (at_ : κ) (change : ρ → ρ) : List ρ :=
  rows.map fun row => if key row = at_ then change row else row

variable {key} {rows : List ρ} {row : ρ} {at_ : κ} {change : ρ → ρ}

theorem key_of_lookup (found : lookup key rows at_ = some row) : key row = at_ := by
  simpa using List.find?_some found

theorem mem_of_lookup (found : lookup key rows at_ = some row) : row ∈ rows :=
  List.mem_of_find?_eq_some found

theorem lookup_eq_none : lookup key rows at_ = none ↔ ∀ row ∈ rows, key row ≠ at_ := by
  simp [lookup]

theorem lookup_cons : lookup key (row :: rows) at_ =
    if key row = at_ then some row else lookup key rows at_ := by
  unfold lookup
  rw [List.find?_cons]
  split_ifs with same
  · rw [decide_eq_true same]
  · rw [decide_eq_false same]

theorem lookup_of_mem (nodup : (rows.map key).Nodup) (member : row ∈ rows) :
    lookup key rows (key row) = some row := by
  unfold lookup
  induction rows with
  | nil => simp at member
  | cons first rest ih =>
      rw [List.map_cons, List.nodup_cons] at nodup
      rw [List.find?_cons]
      cases List.mem_cons.mp member with
      | inl same => simp [same]
      | inr later =>
          have different : key first ≠ key row := by
            intro same
            apply nodup.1
            rw [same]
            exact List.mem_map_of_mem later
          simp only [different, decide_false]
          exact ih nodup.2 later

/-- Among rows with distinct keys, those under the key of a stored row are that
row alone. -/
theorem filter_key_of_mem (nodup : (rows.map key).Nodup) (member : row ∈ rows) :
    rows.filter (fun other => key other = key row) = [row] := by
  induction rows with
  | nil => cases member
  | cons first rows ih =>
      rw [List.map_cons, List.nodup_cons] at nodup
      rcases List.mem_cons.mp member with rfl | later
      · have none : rows.filter (fun other => key other = key row) = [] := by
          rw [List.filter_eq_nil_iff]
          intro other present
          simp only [decide_eq_true_eq]
          intro same
          exact nodup.1 (same ▸ List.mem_map_of_mem present)
        rw [List.filter_cons_of_pos (by simp), none]
      · have different : key first ≠ key row := by
          intro same
          exact nodup.1 (same ▸ List.mem_map_of_mem later)
        rw [List.filter_cons_of_neg (by simpa using different), ih nodup.2 later]

theorem lookup_append (others : List ρ) :
    lookup key (rows ++ others) at_ = (lookup key rows at_).or (lookup key others at_) := by
  simp [lookup, List.find?_append]

theorem lookup_update (kept : ∀ row, key (change row) = key row) (other : κ) :
    lookup key (update key rows at_ change) other =
      if other = at_ then (lookup key rows at_).map change else lookup key rows other := by
  unfold lookup update
  induction rows with
  | nil => simp
  | cons first rest ih =>
      simp only [List.map_cons, List.find?_cons]
      by_cases changed : key first = at_
      · by_cases same : other = at_
        · simp [changed, same, kept]
        · have different : key first ≠ other := by rw [changed]; exact Ne.symm same
          simpa [changed, same, kept, different, Ne.symm same] using ih
      · by_cases found : key first = other
        · have same : other ≠ at_ := by rw [← found]; exact changed
          simp [found, same]
        · simpa [changed, found] using ih

theorem keys_update (kept : ∀ row, key (change row) = key row) :
    (update key rows at_ change).map key = rows.map key := by
  unfold update
  rw [List.map_map]
  apply List.map_congr_left
  intro row _
  simp only [Function.comp_apply]
  split
  · exact kept row
  · rfl

end KeyedRows
