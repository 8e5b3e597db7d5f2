import CustomDomain.Records
import CustomDomain.Traffic

/-!
# Recorded traffic

`app/services/traffic.py`: what a reading of the edge's totals adds to the days of the applications,
and the baselines it leaves.  A table with a primary key is a function from its keys.
-/

namespace CustomDomain.Traffic

/-- Requests and response bytes. -/
abbrev Amount := Int × Int

/-- `EdgeTrafficCounter`. -/
structure Counter where
  total : Amount
  readAt : Time

/-- The counters by hostname, and `application_traffic` by application and day. -/
structure Rows where
  counters : String → Option Counter
  days : Uuid → Int → Option Amount

def Rows.empty : Rows where
  counters _ := none
  days _ _ := none

/-- `OTHER_HOST`. -/
def otherHost : String := "_other"

/-- `COUNTER_EXPIRY`. -/
def counterExpiry : Time := CustomDomain.days 30

/-- `TRAFFIC_RETENTION_DAYS`. -/
def trafficRetentionDays : Int := 400

/-- `now.date()`, in days since the epoch. -/
def date (now : Time) : Int := now / CustomDomain.days 1

/-- An entry of a dictionary, set. -/
def put (host : String) (amount : Amount) : Totals → Totals
  | [] => [(host, amount)]
  | (other, entry) :: rest =>
      if other = host then (other, amount) :: rest else (other, entry) :: put host amount rest

/-- `readings`. -/
def readings (lower : String → String) (totals : Totals) : Totals :=
  (totals.filter fun entry => entry.1 ≠ otherHost).foldl
    (fun rows entry => put (lower entry.1) (max entry.2.1 0, max entry.2.2 0) rows) []

/-- The totals of a counter, zero where there is none. -/
def baseline (counter : Option Counter) : Amount := (counter.map (·.total)).getD (0, 0)

/-- `added`: everything where a total went down. -/
def added (before reading : Amount) : Amount :=
  if reading.1 < before.1 ∨ reading.2 < before.2 then reading
  else (reading.1 - before.1, reading.2 - before.2)

/-- `setdefault(owner, [0, 0])`, and the amount added. -/
def increase (owner : Uuid) (amount : Amount) : List (Uuid × Amount) → List (Uuid × Amount)
  | [] => [(owner, amount)]
  | (other, total) :: rest =>
      if other = owner then (other, (total.1 + amount.1, total.2 + amount.2)) :: rest
      else (other, total) :: increase owner amount rest

/-- `increases` after the loop over the readings. -/
def increases (owners : String → Option Uuid) (rows : Rows) (readings : Totals) :
    List (Uuid × Amount) :=
  readings.foldl (fun total reading =>
    let amount := added (baseline (rows.counters reading.1)) reading.2
    match owners reading.1 with
    | some owner => if amount.1 ≠ 0 ∨ amount.2 ≠ 0 then increase owner amount total else total
    | none => total) []

/-- `record_totals`, with the owners of the live hostnames. -/
def recordTotals (lower : String → String) (totals : Totals) (owners : String → Option Uuid)
    (now : Time) (rows : Rows) : Rows × Nat :=
  let readings := readings lower totals
  let increases := increases owners rows readings
  let today := date now
  ({ counters := fun host =>
      (match readings.lookup host with
        | some total => some (Counter.mk total now)
        | none => rows.counters host).filter fun counter => ¬ counter.readAt < now - counterExpiry
     days := fun application day =>
      (match if day = today then increases.lookup application else none with
        | some amount =>
            let row := (rows.days application day).getD (0, 0)
            some (row.1 + amount.1, row.2 + amount.2)
        | none => rows.days application day).filter fun _ => ¬ day ≤ today - trafficRetentionDays },
    increases.length)

/-- `reset_baselines`. -/
def resetBaselines (rows : Rows) : Rows :=
  { rows with counters := fun host => (rows.counters host).map ({ · with total := (0, 0) }) }

/-! ## What is credited -/

/-- An amount that a reading adds to a day of an application. -/
structure Credit where
  host : String
  application : Uuid
  day : Int
  amount : Amount
  deriving DecidableEq

/-- What the reading of one hostname adds. -/
def creditOf (owners : String → Option Uuid) (rows : Rows) (today : Int)
    (reading : String × Amount) : Option Credit :=
  let amount := added (baseline (rows.counters reading.1)) reading.2
  (owners reading.1).bind fun owner =>
    if amount.1 ≠ 0 ∨ amount.2 ≠ 0 then some ⟨reading.1, owner, today, amount⟩ else none

/-- The credits of a reading. -/
def credits (owners : String → Option Uuid) (rows : Rows) (today : Int) (readings : Totals) :
    List Credit :=
  readings.filterMap (creditOf owners rows today)

/-- The sum of the credits that meet a condition. -/
def sumWhere (test : Credit → Bool) (ledger : List Credit) : Amount :=
  (((ledger.filter test).map (·.amount.1)).sum, ((ledger.filter test).map (·.amount.2)).sum)

@[simp]
theorem sumWhere_nil (test : Credit → Bool) : sumWhere test [] = (0, 0) := rfl

theorem sumWhere_congr {test other : Credit → Bool} {ledger : List Credit}
    (same : ∀ credit ∈ ledger, test credit = other credit) :
    sumWhere test ledger = sumWhere other ledger := by
  rw [sumWhere, sumWhere, List.filter_congr same]

theorem sumWhere_eq_zero {test : Credit → Bool} {ledger : List Credit}
    (none : ∀ credit ∈ ledger, test credit = false) : sumWhere test ledger = (0, 0) := by
  rw [sumWhere, List.filter_eq_nil_iff.mpr fun credit member => by simp [none credit member]]
  rfl

theorem sumWhere_append (test : Credit → Bool) (ledger more : List Credit) :
    sumWhere test (ledger ++ more) = ((sumWhere test ledger).1 + (sumWhere test more).1,
      (sumWhere test ledger).2 + (sumWhere test more).2) := by
  simp [sumWhere]

theorem sumWhere_cons (test : Credit → Bool) (credit : Credit) (ledger : List Credit) :
    sumWhere test (credit :: ledger) =
      if test credit then (credit.amount.1 + (sumWhere test ledger).1,
        credit.amount.2 + (sumWhere test ledger).2)
      else sumWhere test ledger := by
  unfold sumWhere
  split
  next passes => simp [passes]
  next fails => simp [fails]

/-! ## Readings -/

section Readings

variable {lower : String → String}

theorem put_new {host : String} {totals : Totals} (new : host ∉ totals.map (·.1)) (amount : Amount) :
    put host amount totals = totals ++ [(host, amount)] := by
  induction totals with
  | nil => rfl
  | cons entry totals ih =>
      rw [List.map_cons, List.mem_cons, not_or] at new
      rw [put, if_neg fun same => new.1 same.symm, ih new.2]
      rfl

/-- Totals as Caddy's hostnames have them are read as they are. -/
theorem readings_eq (lowercase : Lowercase lower) {totals : Totals}
    (nodup : (totals.map (·.1)).Nodup)
    (clean : ∀ entry ∈ totals, (∀ character ∈ entry.1.toList, isHostCharacter character = true) ∧
      0 ≤ entry.2.1 ∧ 0 ≤ entry.2.2) : readings lower totals = totals := by
  have named : ∀ entry ∈ totals, entry.1 ≠ otherHost := by
    intro entry member other
    have character := (clean entry member).1 '_'
    rw [other] at character
    exact absurd (character (by decide)) (by decide)
  have every : totals.filter (fun entry => entry.1 ≠ otherHost) = totals := by
    rw [List.filter_eq_self]
    intro entry member
    exact decide_eq_true (named entry member)
  have folded : ∀ earlier : Totals, ((earlier ++ totals).map (·.1)).Nodup →
      totals.foldl (fun rows entry => put (lower entry.1) (max entry.2.1 0, max entry.2.2 0) rows)
        earlier = earlier ++ totals := by
    clear every named nodup
    induction totals with
    | nil => simp
    | cons entry totals ih =>
        intro earlier distinct
        obtain ⟨characters, requests, sent⟩ := clean entry List.mem_cons_self
        have new : entry.1 ∉ earlier.map (·.1) := by
          rw [List.map_append, List.map_cons, List.nodup_append] at distinct
          exact fun member => distinct.2.2 _ member _ List.mem_cons_self rfl
        rw [List.foldl_cons, lowercase.fixed _ characters, max_eq_left requests, max_eq_left sent,
          put_new new, ih (fun other member => clean other (List.mem_cons_of_mem _ member)) _
            (by simpa using distinct)]
        simp
  rw [readings, every]
  exact folded [] nodup

end Readings

/-! ## The rows after a reading -/

section Recorded

variable {owners : String → Option Uuid} {rows : Rows}

theorem lookup_increase (owner : Uuid) (amount : Amount) (totals : List (Uuid × Amount))
    (application : Uuid) :
    ((increase owner amount totals).lookup application).getD (0, 0) =
      if application = owner then (((totals.lookup owner).getD (0, 0)).1 + amount.1,
        ((totals.lookup owner).getD (0, 0)).2 + amount.2)
      else (totals.lookup application).getD (0, 0) := by
  induction totals with
  | nil =>
      by_cases same : application = owner
      · simp [increase, same]
      · have differs : (application == owner) = false := beq_eq_false_iff_ne.mpr same
        simp [increase, List.lookup_cons, same, differs]
  | cons entry totals ih =>
      obtain ⟨other, total⟩ := entry
      rw [increase]
      by_cases here : other = owner
      · subst here
        rw [if_pos rfl]
        by_cases same : application = other
        · simp [same]
        · have differs : (application == other) = false := beq_eq_false_iff_ne.mpr same
          simp [List.lookup_cons, same, differs]
      · have differs : (owner == other) = false := beq_eq_false_iff_ne.mpr (Ne.symm here)
        rw [if_neg here]
        by_cases first : application = other
        · simp [first, here]
        · have skipped : (application == other) = false := beq_eq_false_iff_ne.mpr first
          rw [List.lookup_cons, skipped, List.lookup_cons, differs, List.lookup_cons, skipped]
          exact ih

/-- The loop adds up the credits. -/
theorem increases_eq (today : Int) (readings : Totals) : increases owners rows readings =
    (credits owners rows today readings).foldl
      (fun total credit => increase credit.application credit.amount total) [] := by
  rw [credits, List.foldl_filterMap, increases]
  refine congrArg (fun step => readings.foldl step []) (funext₂ fun total reading => ?_)
  dsimp only [creditOf]
  cases owners reading.1 with
  | none => rfl
  | some owner =>
      simp only [Option.bind_some]
      split
      next => rfl
      next => rfl

/-- What is added to the day of an application is the sum of its credits. -/
theorem lookup_increases (today : Int) (readings : Totals) (application : Uuid) :
    ((increases owners rows readings).lookup application).getD (0, 0) =
      sumWhere (fun credit => credit.application = application)
        (credits owners rows today readings) := by
  rw [increases_eq today]
  induction credits owners rows today readings using List.reverseRecOn with
  | nil => rfl
  | append_singleton ledger credit ih =>
      rw [List.foldl_append, List.foldl_cons, List.foldl_nil, lookup_increase, sumWhere_append,
        sumWhere_cons, sumWhere_nil]
      by_cases same : application = credit.application
      · rw [if_pos same, ← same, ih, if_pos (decide_eq_true rfl), add_zero, add_zero]
      · rw [if_neg same, ih, if_neg (by simpa using Ne.symm same), add_zero, add_zero]

theorem credits_day {today : Int} {readings : Totals} :
    ∀ credit ∈ credits owners rows today readings, credit.day = today := by
  intro credit member
  obtain ⟨reading, -, made⟩ := List.mem_filterMap.mp member
  obtain ⟨owner, -, made⟩ := Option.bind_eq_some_iff.mp made
  split at made
  next =>
    cases made
    rfl
  next => cases made

/-- The day of an application after a reading, where it is kept. -/
theorem recordTotals_days {lower : String → String} {totals : Totals} {now : Time}
    {application : Uuid} {day : Int} {row : Amount}
    (kept : (recordTotals lower totals owners now rows).1.days application day = some row) :
    row = (((rows.days application day).getD (0, 0)).1 +
        (sumWhere (fun credit => credit.application = application && credit.day = day)
          (credits owners rows (date now) (readings lower totals))).1,
      ((rows.days application day).getD (0, 0)).2 +
        (sumWhere (fun credit => credit.application = application && credit.day = day)
          (credits owners rows (date now) (readings lower totals))).2) := by
  have made := (Option.filter_eq_some_iff.mp kept).1
  by_cases here : day = date now
  · have whole := @lookup_increases owners rows (date now) (readings lower totals) application
    have same : sumWhere (fun credit => credit.application = application && credit.day = day)
        (credits owners rows (date now) (readings lower totals)) =
        sumWhere (fun credit => credit.application = application)
          (credits owners rows (date now) (readings lower totals)) :=
      sumWhere_congr fun credit member => by simp [credits_day credit member, here]
    rw [same, ← whole]
    rw [if_pos here] at made
    cases found : (increases owners rows (readings lower totals)).lookup application with
    | none =>
        simp only [found] at made
        simp [made]
    | some amount =>
        simp only [found] at made
        cases made
        rfl
  · rw [sumWhere_eq_zero fun credit member => by
      simp [credits_day credit member, Ne.symm here]]
    rw [if_neg here] at made
    simp [show rows.days application day = some row from made]

/-- The day of an application on which a reading is taken grows by the credits of the reading. -/
theorem recordTotals_today {lower : String → String} {totals : Totals} {now : Time}
    {application : Uuid} :
    ((recordTotals lower totals owners now rows).1.days application (date now)).getD (0, 0) =
      (rows.days application (date now)).getD (0, 0) +
        sumWhere (fun credit => credit.application = application && credit.day = date now)
          (credits owners rows (date now) (readings lower totals)) := by
  cases kept : (recordTotals lower totals owners now rows).1.days application (date now) with
  | some row => exact recordTotals_days kept
  | none =>
      have whole := @lookup_increases owners rows (date now) (readings lower totals) application
      have same : sumWhere (fun credit => credit.application = application && credit.day = date now)
          (credits owners rows (date now) (readings lower totals)) =
          sumWhere (fun credit => credit.application = application)
            (credits owners rows (date now) (readings lower totals)) :=
        sumWhere_congr fun credit member => by simp [credits_day credit member]
      -- The row of today is not among the old rows, so there was none and nothing was credited.
      have young : ¬ date now ≤ date now - trafficRetentionDays := by
        rw [trafficRetentionDays]
        omega
      have made := Option.filter_eq_none_iff.mp kept
      rw [if_pos rfl] at made
      cases found : (increases owners rows (readings lower totals)).lookup application with
      | some amount =>
          exact absurd young (by simpa [found] using made)
      | none =>
          rw [found] at whole
          rw [same, ← whole]
          cases old : rows.days application (date now) with
          | some row => exact absurd young (by simpa [found, old] using made)
          | none => rfl

/-- The credits of one hostname. -/
theorem sumWhere_credits (today : Int) {readings : Totals} (nodup : (readings.map (·.1)).Nodup)
    (host : String) :
    sumWhere (fun credit => credit.host = host) (credits owners rows today readings) =
      match readings.lookup host, owners host with
      | some reading, some _ => added (baseline (rows.counters host)) reading
      | _, _ => (0, 0) := by
  induction readings with
  | nil => rfl
  | cons reading readings ih =>
      obtain ⟨other, amount⟩ := reading
      rw [List.map_cons, List.nodup_cons] at nodup
      have rest := ih nodup.2
      rw [credits, List.filterMap_cons, creditOf]
      by_cases here : other = host
      · subst here
        have others : readings.lookup other = none := by
          rw [List.lookup_eq_none_iff]
          intro entry member
          rw [bne_iff_ne]
          intro same
          apply nodup.1
          rw [same]
          exact List.mem_map.mpr ⟨entry, member, rfl⟩
        rw [others] at rest
        have none : sumWhere (fun credit => credit.host = other)
            (credits owners rows today readings) = (0, 0) := by
          rw [rest]
        rw [List.lookup_cons_self]
        cases owners other with
        | none => exact none
        | some owner =>
            simp only [Option.bind_some]
            split
            next unchanged =>
              split at unchanged
              next => cases unchanged
              next zero =>
                rw [not_or, not_not, not_not] at zero
                exact none.trans (Prod.ext zero.1.symm zero.2.symm)
            next credit changed =>
              split at changed
              next =>
                cases changed
                rw [sumWhere_cons, if_pos (decide_eq_true rfl)]
                change (_ + (sumWhere _ (credits owners rows today readings)).1,
                  _ + (sumWhere _ (credits owners rows today readings)).2) = _
                rw [none, add_zero, add_zero]
              next => cases changed
      · have skipped : (host == other) = false := beq_eq_false_iff_ne.mpr (Ne.symm here)
        rw [List.lookup_cons, skipped]
        refine Eq.trans ?_ rest
        split
        next => rfl
        next credit made =>
          obtain ⟨owner, -, made⟩ := Option.bind_eq_some_iff.mp made
          split at made
          next =>
            cases made
            rw [sumWhere_cons, if_neg (by simpa using here)]
            rfl
          next => cases made

theorem baseline_recorded {lower : String → String} {totals : Totals} {now : Time} {host : String}
    {total : Amount} (read : (readings lower totals).lookup host = some total) :
    baseline ((recordTotals lower totals owners now rows).1.counters host) = total := by
  have fresh : ¬ now < now - counterExpiry :=
    not_lt.mpr (Int.sub_le_self now (by decide))
  simp only [recordTotals, read]
  rw [Option.filter_some, if_pos (decide_eq_true fresh)]
  rfl

theorem counters_recorded {lower : String → String} {totals : Totals} {now : Time} {host : String}
    (unread : (readings lower totals).lookup host = none) :
    (recordTotals lower totals owners now rows).1.counters host = rows.counters host ∨
      (recordTotals lower totals owners now rows).1.counters host = none := by
  simp only [recordTotals, unread]
  cases rows.counters host with
  | none => exact .inl rfl
  | some counter =>
      rw [Option.filter_some]
      split
      next => exact .inl rfl
      next => exact .inr rfl

theorem baseline_resetBaselines (host : String) :
    baseline ((resetBaselines rows).counters host) = (0, 0) := by
  cases found : rows.counters host with
  | none => simp [resetBaselines, baseline, found]
  | some counter => simp [resetBaselines, baseline, found]

end Recorded

end CustomDomain.Traffic
