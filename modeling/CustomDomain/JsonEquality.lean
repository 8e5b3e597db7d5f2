import CustomDomain.PythonJson

/-!
# When two JSON values are equal for Python

An object of a JSON value has every key once.  Objects whose keys are the same are then equal as
soon as the values under each key are.
-/

namespace PythonJson.Json

mutual

/-- Every key of an object occurs once, and every float is as `test` says. -/
def proper (test : PyFloat → Bool) : Json → Bool
  | .float value => test value
  | .arr items => properItems test items
  | .obj fields => properFields test fields
  | _ => true

def properItems (test : PyFloat → Bool) : List Json → Bool
  | [] => true
  | item :: items => proper test item && properItems test items

def properFields (test : PyFloat → Bool) : List (String × Json) → Bool
  | [] => true
  | (key, value) :: rest =>
      proper test value && (lookup key rest).isNone && properFields test rest

end

/-- What `json.loads` returns: every key of an object occurs once. -/
def distinct (value : Json) : Bool := proper (fun _ => true) value

/-- A value that equals itself: without NaN. -/
def plain (value : Json) : Bool := proper (fun value => decide (value ≠ .nan)) value

/-- `mapping.get(key)`, with `None` where there is no such key. -/
def pyGet (key : String) (fields : List (String × Json)) : Json := (lookup key fields).getD .null

/-- Every key is there once. -/
def SingleValued (fields : List (String × Json)) : Prop :=
  ∀ field ∈ fields, lookup field.1 fields = some field.2

/-! ## Looking up -/

section Fields

variable {test : PyFloat → Bool} {fields expected : List (String × Json)} {key : String} {value : Json}

theorem mem_of_lookup (found : lookup key fields = some value) : (key, value) ∈ fields := by
  induction fields with
  | nil => cases found
  | cons first rest ih =>
      obtain ⟨name, other⟩ := first
      rw [lookup] at found
      split at found
      next same =>
        cases found
        rw [same]
        exact List.mem_cons_self
      next => exact List.mem_cons_of_mem _ (ih found)

theorem isSome_lookup_of_mem (member : (key, value) ∈ fields) :
    (lookup key fields).isSome = true := by
  induction fields with
  | nil => cases member
  | cons first rest ih =>
      obtain ⟨name, other⟩ := first
      rw [lookup]
      split
      next => rfl
      next different =>
        rcases List.mem_cons.mp member with same | later
        · cases same
          exact absurd rfl different
        · exact ih later

theorem lookup_eq_none : lookup key fields = none ↔ ∀ field ∈ fields, field.1 ≠ key := by
  constructor
  · intro absent field member same
    have found : (lookup field.1 fields).isSome = true := isSome_lookup_of_mem member
    rw [same, absent] at found
    cases found
  · intro absent
    cases found : lookup key fields with
    | none => rfl
    | some value => exact absurd rfl (absent _ (mem_of_lookup found))

theorem lookup_of_mem (proper : properFields test fields = true) (member : (key, value) ∈ fields) :
    lookup key fields = some value := by
  induction fields with
  | nil => cases member
  | cons first rest ih =>
      obtain ⟨name, other⟩ := first
      rw [properFields, Bool.and_eq_true, Bool.and_eq_true] at proper
      rw [lookup]
      rcases List.mem_cons.mp member with same | later
      · cases same
        rw [if_pos rfl]
      · have different : name ≠ key := by
          intro same
          have found := isSome_lookup_of_mem later
          rw [← same, Option.isNone_iff_eq_none.mp proper.1.2] at found
          cases found
        rw [if_neg different]
        exact ih proper.2 later

theorem proper_of_mem (proper_ : properFields test fields = true) (member : (key, value) ∈ fields) :
    proper test value = true := by
  induction fields with
  | nil => cases member
  | cons first rest ih =>
      obtain ⟨name, other⟩ := first
      rw [properFields, Bool.and_eq_true, Bool.and_eq_true] at proper_
      rcases List.mem_cons.mp member with same | later
      · cases same
        exact proper_.1.1
      · exact ih proper_.2 later

theorem proper_of_lookup (proper_ : properFields test fields = true)
    (found : lookup key fields = some value) : proper test value = true :=
  proper_of_mem proper_ (mem_of_lookup found)

theorem proper_of_mem_items {items : List Json} (proper_ : properItems test items = true) :
    ∀ item ∈ items, proper test item = true := by
  induction items with
  | nil => simp
  | cons first rest ih =>
      rw [properItems, Bool.and_eq_true] at proper_
      intro item member
      rcases List.mem_cons.mp member with rfl | later
      · exact proper_.1
      · exact ih proper_.2 item later

theorem properItems_iff {items : List Json} :
    properItems test items = true ↔ ∀ item ∈ items, proper test item = true := by
  constructor
  · exact proper_of_mem_items
  · intro each
    induction items with
    | nil => rfl
    | cons first rest ih =>
        rw [properItems, each first List.mem_cons_self, Bool.true_and]
        exact ih fun item member => each item (List.mem_cons_of_mem _ member)

/-! ## Equality of objects -/

theorem pyEqFields_iff : pyEqFields fields expected = true ↔
    ∀ field ∈ fields, ∃ other, lookup field.1 expected = some other ∧ pyEq field.2 other = true := by
  induction fields with
  | nil => simp [pyEqFields]
  | cons first rest ih =>
      obtain ⟨name, value⟩ := first
      rw [pyEqFields, Bool.and_eq_true, ih, List.forall_mem_cons]
      cases found : lookup name expected with
      | none => simp
      | some other => simp

theorem pyEq_obj_iff : pyEq (.obj fields) (.obj expected) = true ↔
    (∀ field ∈ fields, ∃ other, lookup field.1 expected = some other ∧ pyEq field.2 other = true) ∧
      ∀ field ∈ expected, (lookup field.1 fields).isSome = true := by
  rw [pyEq, Bool.and_eq_true, pyEqFields_iff, List.all_eq_true]

/-- Objects with the same keys are equal where the values under each key are. -/
theorem pyEq_obj (unique : SingleValued fields)
    (known : ∀ field ∈ fields, (lookup field.1 expected).isSome = true)
    (present : ∀ field ∈ expected, (lookup field.1 fields).isSome = true)
    (values : ∀ key value other, lookup key fields = some value → lookup key expected = some other →
      pyEq value other = true) :
    pyEq (.obj fields) (.obj expected) = true := by
  rw [pyEq_obj_iff]
  constructor
  · intro field member
    obtain ⟨other, found⟩ := Option.isSome_iff_exists.mp (known field member)
    exact ⟨other, found, values _ _ _ (unique field member) found⟩
  · exact present

end Fields

/-! ## Reflexivity -/

theorem numberEq_self {value : PyFloat} (number : value ≠ .nan) : numberEq value value = true := by
  cases value with
  | nan => exact absurd rfl number
  | finite value => simp [numberEq]
  | infinite negative => simp [numberEq]

mutual

theorem pyEq_refl : (value : Json) → plain value = true → pyEq value value = true
  | .null, _ => by rw [pyEq]
  | .str text, _ => by simp [pyEq]
  | .bool value, _ => by simp [pyEq, pyEqNumber, number, numberEq]
  | .int value, _ => by simp [pyEq, pyEqNumber, number, numberEq]
  | .float value, plain => by
      simp only [Json.plain, proper, decide_eq_true_eq] at plain
      simp [pyEq, pyEqNumber, number, numberEq_self plain]
  | .arr items, plain => by
      rw [pyEq]
      exact pyEqItems_refl items plain
  | .obj fields, plain => by
      rw [pyEq, Bool.and_eq_true, List.all_eq_true]
      constructor
      · exact pyEqFields_refl fields fields (fun _ member => lookup_of_mem plain member) plain
      · intro field member
        exact isSome_lookup_of_mem member

theorem pyEqItems_refl : (items : List Json) →
    properItems (fun value => decide (value ≠ .nan)) items = true → pyEqItems items items = true
  | [], _ => by rw [pyEqItems]
  | item :: items, plain => by
      rw [properItems, Bool.and_eq_true] at plain
      rw [pyEqItems, pyEq_refl item plain.1, Bool.true_and]
      exact pyEqItems_refl items plain.2

theorem pyEqFields_refl : (fields others : List (String × Json)) →
    (∀ field ∈ fields, lookup field.1 others = some field.2) →
    properFields (fun value => decide (value ≠ .nan)) fields = true →
    pyEqFields fields others = true
  | [], _, _, _ => by rw [pyEqFields]
  | (key, value) :: rest, others, found, plain => by
      rw [properFields, Bool.and_eq_true, Bool.and_eq_true] at plain
      rw [pyEqFields, found _ List.mem_cons_self]
      dsimp only
      rw [pyEq_refl value plain.1.1, Bool.true_and]
      exact pyEqFields_refl rest others
        (fun field member => found field (List.mem_cons_of_mem _ member)) plain.2

end

/-! ## Values that share objects -/

/-- `first == second` where parts of the two may be one object: Python takes an object inside a list
or a dictionary for equal to itself, also a NaN. -/
inductive Same : Json → Json → Prop where
  | refl (value : Json) : Same value value
  | equal {first second : Json} (equal : pyEq first second = true) : Same first second
  | arr {first second : List Json} (length : first.length = second.length)
      (items : ∀ (index : Nat) one two, first[index]? = some one → second[index]? = some two →
        Same one two) :
      Same (.arr first) (.arr second)
  | obj {first second : List (String × Json)}
      (keys : ∀ key, (lookup key first).isSome = (lookup key second).isSome)
      (values : ∀ key one two, lookup key first = some one → lookup key second = some two →
        Same one two) :
      Same (.obj first) (.obj second)

theorem pyEqItems_iff {first second : List Json} : pyEqItems first second = true ↔
    first.length = second.length ∧ ∀ (index : Nat) one two, first[index]? = some one →
      second[index]? = some two → pyEq one two = true := by
  induction first generalizing second with
  | nil => cases second <;> simp [pyEqItems]
  | cons head tail ih =>
      cases second with
      | nil => simp [pyEqItems]
      | cons head' tail' =>
          rw [pyEqItems, Bool.and_eq_true, ih, List.length_cons, List.length_cons, Nat.add_right_cancel_iff]
          constructor
          · rintro ⟨one, length, items⟩
            refine ⟨length, fun index => ?_⟩
            cases index with
            | zero => simpa using one
            | succ index => simpa using items index
          · rintro ⟨length, items⟩
            refine ⟨items 0 head head' rfl rfl, length, fun index => ?_⟩
            simpa using items (index + 1)

section Same

variable {first second : List Json} {fields others : List (String × Json)}

theorem Same.arr_iff : Same (.arr first) (.arr second) ↔
    first.length = second.length ∧ ∀ (index : Nat) one two, first[index]? = some one →
      second[index]? = some two → Same one two := by
  constructor
  · intro same
    cases same with
    | refl =>
        refine ⟨rfl, fun index one two left right => ?_⟩
        cases left.symm.trans right
        exact .refl one
    | equal equal =>
        rw [pyEq, pyEqItems_iff] at equal
        exact ⟨equal.1, fun index one two left right => .equal (equal.2 index one two left right)⟩
    | arr length items => exact ⟨length, items⟩
  · exact fun facts => .arr facts.1 facts.2

theorem Same.obj_iff : Same (.obj fields) (.obj others) ↔
    (∀ key, (lookup key fields).isSome = (lookup key others).isSome) ∧
      ∀ key one two, lookup key fields = some one → lookup key others = some two →
        Same one two := by
  constructor
  · intro same
    cases same with
    | refl =>
        refine ⟨fun _ => rfl, fun key one two left right => ?_⟩
        cases left.symm.trans right
        exact .refl one
    | equal equal =>
        obtain ⟨known, present⟩ := pyEq_obj_iff.mp equal
        constructor
        · intro key
          rw [Bool.eq_iff_iff]
          constructor
          · intro there
            obtain ⟨value, found⟩ := Option.isSome_iff_exists.mp there
            obtain ⟨other, found', -⟩ := known _ (mem_of_lookup found)
            rw [found']
            rfl
          · intro there
            obtain ⟨value, found⟩ := Option.isSome_iff_exists.mp there
            exact present _ (mem_of_lookup found)
        · intro key one two left right
          obtain ⟨other, found, equal⟩ := known _ (mem_of_lookup left)
          rw [right] at found
          cases found
          exact .equal equal
    | obj keys values => exact ⟨keys, values⟩
  · exact fun facts => .obj facts.1 facts.2

theorem Same.cons_iff {one two : Json} : Same (.arr (one :: first)) (.arr (two :: second)) ↔
    Same one two ∧ Same (.arr first) (.arr second) := by
  rw [Same.arr_iff, Same.arr_iff, List.length_cons, List.length_cons, Nat.add_right_cancel_iff]
  constructor
  · rintro ⟨length, items⟩
    exact ⟨items 0 one two rfl rfl, length, fun index => by simpa using items (index + 1)⟩
  · rintro ⟨head, length, items⟩
    refine ⟨length, fun index => ?_⟩
    cases index with
    | zero => simpa using head
    | succ index => simpa using items index

/-- What is the same as a value without NaN equals it. -/
theorem Same.pyEq {one two : Json} (same : Same one two) (plain : one.plain = true) :
    one.pyEq two = true := by
  induction same with
  | refl value => exact pyEq_refl value plain
  | equal equal => exact equal
  | arr length items ih =>
      rw [Json.pyEq, pyEqItems_iff]
      refine ⟨length, fun index one two left right => ih index one two left right ?_⟩
      exact proper_of_mem_items plain _ (List.mem_of_getElem? left)
  | obj keys values ih =>
      refine pyEq_obj (fun field member => lookup_of_mem plain member) ?_ ?_ ?_
      · intro field member
        rw [← keys, lookup_of_mem plain member]
        rfl
      · intro field member
        rw [keys]
        exact isSome_lookup_of_mem member
      · intro key one two left right
        exact ih key one two left right (proper_of_lookup plain left)

theorem same_iff_of_plain {one two : Json} (plain : one.plain = true) :
    Same one two ↔ one.pyEq two = true :=
  ⟨fun same => same.pyEq plain, .equal⟩

end Same

/-! ## Reading an object -/

/-- `value is None`. -/
def isNull : Json → Bool
  | .null => true
  | _ => false

theorem unique_of_distinct {fields : List (String × Json)}
    (distinct : (obj fields).distinct = true) : SingleValued fields :=
  fun _ member => lookup_of_mem distinct member

theorem pyEq_str {value : Json} {text : String} : pyEq value (.str text) = true ↔ value = .str text := by
  constructor
  · intro equal
    cases value with
    | str other =>
        rw [pyEq, beq_iff_eq] at equal
        rw [equal]
    | _ => simp [pyEq, pyEqNumber, number] at equal
  · rintro rfl
    rw [pyEq, beq_self_eq_true]

theorem eq_null {value : Json} (null : isNull value = true) : value = .null := by
  cases value with
  | null => rfl
  | _ => cases null

theorem pyEq_null {value : Json} (equal : pyEq .null value = true) : value = .null := by
  cases value with
  | null => rfl
  | _ => simp [pyEq] at equal

theorem lookup_of_pyGet {key : String} {fields : List (String × Json)}
    (there : pyGet key fields ≠ .null) : lookup key fields = some (pyGet key fields) := by
  cases found : lookup key fields with
  | none => exact absurd (by rw [pyGet, found, Option.getD_none]) there
  | some value => rw [pyGet, found, Option.getD_some]

/-- What equals a value that is not null is there, and is not null. -/
theorem lookup_of_pyEq {key : String} {fields : List (String × Json)} {value : Json}
    (equal : pyEq (pyGet key fields) value = true) (notNull : value ≠ .null) :
    lookup key fields = some (pyGet key fields) ∧ isNull (pyGet key fields) = false := by
  have other : pyGet key fields ≠ .null := by
    intro null
    rw [null] at equal
    exact notNull (pyEq_null equal)
  constructor
  · exact lookup_of_pyGet other
  · cases shape : pyGet key fields with
    | null => exact absurd shape other
    | _ => rfl

theorem obj_of_pyEq {value : Json} {expected : List (String × Json)}
    (equal : pyEq value (.obj expected) = true) : ∃ fields, value = .obj fields := by
  cases value with
  | obj fields => exact ⟨fields, rfl⟩
  | _ => simp [pyEq, pyEqNumber, number] at equal

theorem pyEqItems_append {first second others more : List Json} (one : pyEqItems first second = true)
    (two : pyEqItems others more = true) : pyEqItems (first ++ others) (second ++ more) = true := by
  induction first generalizing second with
  | nil =>
      cases second with
      | nil => exact two
      | cons _ _ => simp [pyEqItems] at one
  | cons head tail ih =>
      cases second with
      | nil => simp [pyEqItems] at one
      | cons head' tail' =>
          rw [pyEqItems, Bool.and_eq_true] at one
          rw [List.cons_append, List.cons_append, pyEqItems, one.1, Bool.true_and]
          exact ih one.2

theorem isSome_lookup_of_key {fields : List (String × Json)} {name : String}
    (member : name ∈ fields.map (·.1)) : (lookup name fields).isSome = true := by
  obtain ⟨field, inside, rfl⟩ := List.mem_map.mp member
  exact isSome_lookup_of_mem inside

end PythonJson.Json
