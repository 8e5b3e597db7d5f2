import CustomDomain.GuardedRuns
import CustomDomain.TrafficRecords

/-!
# Traffic over a run

Caddy's counters of each hostname, the rows that the reconciler writes, and the credits behind them,
as requests come in, Caddy restarts, hostnames change hands and reconcilers run.  The lock lets one
run at a time read the totals, record them, apply a configuration and commit.
-/

namespace CustomDomain.Traffic

open GuardedRuns

/-- Where `_run` is. -/
inductive Phase where
  /-- The lock is held, and the configuration built. -/
  | locked
  /-- `client.traffic` answered. -/
  | read (totals : Totals)
  | applying
  | resetting
  | finished

/-- The transaction of a reconciler's run. -/
structure Transaction where
  now : Time
  phase : Phase
  rows : Rows
  ledger : List Credit

structure State where
  /-- Caddy's counters since its last restart. -/
  counts : String → Amount
  served : String → Amount
  owners : String → Option Uuid
  rows : Rows
  ledger : List Credit
  run : Option Transaction

inductive Action where
  /-- A request is answered with this many bytes. -/
  | serve (host : String) (bytes : Nat)
  | restart
  /-- Domains are registered, deleted, moved. -/
  | claim (owners : String → Option Uuid)
  | start (now : Time)
  | readTotals (totals : Totals)
  | readFailed
  | recordTotals
  | recordFailed
  /-- `_apply` leaves the configuration: it is the same, it is refused, or Caddy is not reached. -/
  | kept
  /-- A new configuration is applied, but its answer is lost. -/
  | lost
  | applied
  | resetBaselines
  | resetFailed
  | commit
  /-- The transaction is rolled back. -/
  | abort

/-- What is owned when everything starts at zero. -/
def State.initial (owners : String → Option Uuid) : State where
  counts _ := (0, 0)
  served _ := (0, 0)
  owners := owners
  rows := .empty
  ledger := []
  run := none

/-- A request more, and its bytes. -/
def count? (host : String) (bytes : Nat) (amounts : String → Amount) (other : String) : Amount :=
  if other = host then ((amounts other).1 + 1, (amounts other).2 + bytes) else amounts other

def perform (lower : String → String) (state : State) : Action → Option State
  | .serve host bytes =>
      some { state with
        counts := count? host bytes state.counts, served := count? host bytes state.served }
  | .restart => some { state with counts := fun _ => (0, 0) }
  | .claim owners => some { state with owners := owners }
  | .start now =>
      match state.run with
      | none => some { state with run := some ⟨now, .locked, state.rows, state.ledger⟩ }
      | some _ => none
  | .readTotals totals =>
      match state.run with
      | some ⟨now, .locked, rows, ledger⟩ =>
          some { state with run := some ⟨now, .read totals, rows, ledger⟩ }
      | _ => none
  | .readFailed =>
      match state.run with
      | some ⟨now, .locked, rows, ledger⟩ =>
          some { state with run := some ⟨now, .applying, rows, ledger⟩ }
      | _ => none
  | .recordTotals =>
      match state.run with
      | some ⟨now, .read totals, rows, ledger⟩ =>
          some { state with
            run := some ⟨now, .applying,
              (Traffic.recordTotals lower totals state.owners now rows).1,
              ledger ++ credits state.owners rows (date now) (readings lower totals)⟩ }
      | _ => none
  | .recordFailed =>
      match state.run with
      | some ⟨now, .read _, rows, ledger⟩ =>
          some { state with run := some ⟨now, .applying, rows, ledger⟩ }
      | _ => none
  | .kept =>
      match state.run with
      | some ⟨now, .applying, rows, ledger⟩ =>
          some { state with run := some ⟨now, .finished, rows, ledger⟩ }
      | _ => none
  | .lost =>
      match state.run with
      | some ⟨now, .applying, rows, ledger⟩ =>
          some { state with
            counts := fun _ => (0, 0), run := some ⟨now, .finished, rows, ledger⟩ }
      | _ => none
  | .applied =>
      match state.run with
      | some ⟨now, .applying, rows, ledger⟩ =>
          some { state with
            counts := fun _ => (0, 0), run := some ⟨now, .resetting, rows, ledger⟩ }
      | _ => none
  | .resetBaselines =>
      match state.run with
      | some ⟨now, .resetting, rows, ledger⟩ =>
          some { state with run := some ⟨now, .finished, Traffic.resetBaselines rows, ledger⟩ }
      | _ => none
  | .resetFailed =>
      match state.run with
      | some ⟨now, .resetting, rows, ledger⟩ =>
          some { state with run := some ⟨now, .finished, rows, ledger⟩ }
      | _ => none
  | .commit =>
      match state.run with
      | some ⟨_, .finished, rows, ledger⟩ =>
          some { state with rows := rows, ledger := ledger, run := none }
      | _ => none
  | .abort =>
      match state.run with
      | some _ => some { state with run := none }
      | none => none

/-- Totals as Caddy reports them: of every hostname that was counted, as it was counted. -/
structure Reported (counts : String → Amount) (totals : Totals) : Prop where
  nodup : (totals.map (·.1)).Nodup
  hosts : ∀ entry ∈ totals, ∀ character ∈ entry.1.toList, isHostCharacter character = true
  counts_eq : ∀ entry ∈ totals, counts entry.1 = entry.2
  complete : ∀ host, counts host ≠ (0, 0) → host ∈ totals.map (·.1)

/-- What is not decided by the code: Caddy reports its counters, of hostnames. -/
def Faithful (state : State) : Action → State → Prop
  | .serve host _, _ => ∀ character ∈ host.toList, isHostCharacter character = true
  | .readTotals totals, _ => Reported state.counts totals
  | _, _ => True

/-! ## Amounts -/

/-- The credits are covered: by what was served up to the baseline, as long as Caddy has not
restarted since, or else by what was served up to the restart. -/
def Covered (before credited counts served : Amount) : Prop :=
  (before.1 ≤ counts.1 ∧ before.2 ≤ counts.2 ∧
    credited.1 + counts.1 ≤ served.1 + before.1 ∧ credited.2 + counts.2 ≤ served.2 + before.2) ∨
  (credited.1 + counts.1 ≤ served.1 ∧ credited.2 + counts.2 ≤ served.2)

section Amounts

variable {before credited counts served reading : Amount}

theorem Covered.le_served (covered : Covered before credited counts served) (positive : 0 ≤ counts.1)
    (positive' : 0 ≤ counts.2) : credited.1 ≤ served.1 ∧ credited.2 ≤ served.2 := by
  unfold Covered at covered
  omega

theorem Covered.restart (covered : Covered before credited counts served) (positive : 0 ≤ counts.1)
    (positive' : 0 ≤ counts.2) (next : Amount) : Covered next credited (0, 0) served := by
  unfold Covered at covered ⊢
  dsimp only
  omega

theorem Covered.serve (covered : Covered before credited counts served) (bytes : Nat) :
    Covered before credited (counts.1 + 1, counts.2 + bytes) (served.1 + 1, served.2 + bytes) := by
  unfold Covered at covered ⊢
  dsimp only
  omega

theorem Covered.mono (covered : Covered before credited counts served) {less : Amount}
    (fewer : less.1 ≤ credited.1 ∧ less.2 ≤ credited.2) : Covered before less counts served := by
  unfold Covered at covered ⊢
  omega

/-- What the totals add is covered with them as the new baseline. -/
theorem Covered.read (covered : Covered before credited counts served) (start : 0 ≤ before.1)
    (start' : 0 ≤ before.2) : Covered counts (credited.1 + (added before counts).1,
      credited.2 + (added before counts).2) counts served := by
  unfold Covered at covered ⊢
  unfold added
  split
  next => omega
  next => dsimp only; omega

theorem added_nonneg (positive : 0 ≤ reading.1) (positive' : 0 ≤ reading.2) :
    0 ≤ (added before reading).1 ∧ 0 ≤ (added before reading).2 := by
  unfold added
  split
  next => exact ⟨positive, positive'⟩
  next => dsimp only; omega

end Amounts

/-! ## What the rows keep -/

/-- The credits of a hostname. -/
def credited (ledger : List Credit) (host : String) : Amount :=
  sumWhere (fun credit => credit.host = host) ledger

/-- The credits of a day of an application. -/
def creditedOn (ledger : List Credit) (application : Uuid) (day : Int) : Amount :=
  sumWhere (fun credit => credit.application = application && credit.day = day) ledger

/-- The total of a hostname in a reading. -/
def totalOf (totals : Totals) (host : String) : Amount := (totals.lookup host).getD (0, 0)

structure Held (counts served : String → Amount) (rows : Rows) (ledger : List Credit) : Prop where
  covered : ∀ host, Covered (baseline (rows.counters host)) (credited ledger host) (counts host)
    (served host)
  baselines : ∀ host, 0 ≤ (baseline (rows.counters host)).1 ∧ 0 ≤ (baseline (rows.counters host)).2
  amounts : ∀ credit ∈ ledger, 0 ≤ credit.amount.1 ∧ 0 ≤ credit.amount.2
  days : ∀ application day row, rows.days application day = some row →
    row.1 ≤ (creditedOn ledger application day).1 ∧ row.2 ≤ (creditedOn ledger application day).2

/-- What the phase of a run promises. -/
def Promised (counts served : String → Amount) (run : Transaction) : Prop :=
  match run.phase with
  | .read totals =>
      (totals.map (·.1)).Nodup ∧
      (∀ entry ∈ totals, (∀ character ∈ entry.1.toList, isHostCharacter character = true) ∧
        0 ≤ entry.2.1 ∧ 0 ≤ entry.2.2) ∧
      ∀ host, Covered (totalOf totals host)
        ((credited run.ledger host).1 +
            (added (baseline (run.rows.counters host)) (totalOf totals host)).1,
          (credited run.ledger host).2 +
            (added (baseline (run.rows.counters host)) (totalOf totals host)).2)
        (counts host) (served host)
  | .resetting => ∀ host, Covered (0, 0) (credited run.ledger host) (counts host) (served host)
  | _ => True

structure Sound (state : State) : Prop where
  counts : ∀ host, 0 ≤ (state.counts host).1 ∧ 0 ≤ (state.counts host).2
  stored : Held state.counts state.served state.rows state.ledger
  run : ∀ run, state.run = some run →
    Held state.counts state.served run.rows run.ledger ∧ Promised state.counts state.served run

section Moves

variable {counts served counts' served' : String → Amount}

/-- Caddy's counters go on in a way that leaves covered what is covered. -/
def Moves (counts served counts' served' : String → Amount) : Prop :=
  ∀ host before credited, Covered before credited (counts host) (served host) →
    Covered before credited (counts' host) (served' host)

theorem moves_serve (host : String) (bytes : Nat) :
    Moves counts served (count? host bytes counts) (count? host bytes served) := by
  intro other before credited covered
  unfold count?
  split
  next => exact covered.serve bytes
  next => exact covered

theorem moves_restart (positive : ∀ host, 0 ≤ (counts host).1 ∧ 0 ≤ (counts host).2) :
    Moves counts served (fun _ => (0, 0)) served :=
  fun host before _ covered => covered.restart (positive host).1 (positive host).2 before

theorem Held.moves {rows : Rows} {ledger : List Credit} (held : Held counts served rows ledger)
    (moves : Moves counts served counts' served') : Held counts' served' rows ledger :=
  { held with covered := fun host => moves host _ _ (held.covered host) }

theorem Promised.moves {run : Transaction} (promised : Promised counts served run)
    (moves : Moves counts served counts' served') : Promised counts' served' run := by
  unfold Promised at promised ⊢
  split
  next totals read =>
    rw [read] at promised
    exact ⟨promised.1, promised.2.1, fun host => moves host _ _ (promised.2.2 host)⟩
  next resetting =>
    rw [resetting] at promised
    exact fun host => moves host _ _ (promised host)
  next => trivial

theorem Sound.moves {state : State} (sound : Sound state)
    (moves : Moves state.counts state.served counts' served')
    (positive : ∀ host, 0 ≤ (counts' host).1 ∧ 0 ≤ (counts' host).2) :
    Sound { state with counts := counts', served := served' } where
  counts := positive
  stored := sound.stored.moves moves
  run run running := ⟨(sound.run run running).1.moves moves, (sound.run run running).2.moves moves⟩

end Moves

section Recording

variable {lower : String → String} {owners : String → Option Uuid} {rows : Rows}
  {ledger : List Credit} {counts served : String → Amount} {totals : Totals}

theorem totalOf_nonneg (positive : ∀ entry ∈ totals, 0 ≤ entry.2.1 ∧ 0 ≤ entry.2.2)
    (host : String) : 0 ≤ (totalOf totals host).1 ∧ 0 ≤ (totalOf totals host).2 := by
  unfold totalOf
  cases found : totals.lookup host with
  | none => exact ⟨le_rfl, le_rfl⟩
  | some total =>
      obtain ⟨_, _, rows, -⟩ := List.lookup_eq_some_iff.mp found
      apply positive (host, total)
      rw [rows]
      exact List.mem_append_right _ List.mem_cons_self

/-- What a reading of the totals credits to a hostname. -/
theorem credited_append (nodup : (totals.map (·.1)).Nodup) (today : Int) (host : String) :
    credited (ledger ++ credits owners rows today totals) host =
      match totals.lookup host, owners host with
      | some total, some _ =>
          ((credited ledger host).1 + (added (baseline (rows.counters host)) total).1,
            (credited ledger host).2 + (added (baseline (rows.counters host)) total).2)
      | _, _ => credited ledger host := by
  rw [credited, sumWhere_append, sumWhere_credits today nodup host]
  cases totals.lookup host with
  | none => simp [credited]
  | some total =>
      cases owners host with
      | none => simp [credited]
      | some owner => rfl

theorem credited_append_le (nodup : (totals.map (·.1)).Nodup)
    (positive : ∀ entry ∈ totals, 0 ≤ entry.2.1 ∧ 0 ≤ entry.2.2) (today : Int) (host : String) :
    (credited (ledger ++ credits owners rows today totals) host).1 ≤ (credited ledger host).1 +
        (added (baseline (rows.counters host)) (totalOf totals host)).1 ∧
      (credited (ledger ++ credits owners rows today totals) host).2 ≤ (credited ledger host).2 +
        (added (baseline (rows.counters host)) (totalOf totals host)).2 := by
  have start := totalOf_nonneg positive host
  have more := @added_nonneg (baseline (rows.counters host)) _ start.1 start.2
  rw [credited_append nodup]
  split
  next total owner found _ =>
    rw [show totalOf totals host = total by rw [totalOf, found, Option.getD_some]]
    exact ⟨le_rfl, le_rfl⟩
  next => omega

theorem credits_nonneg (positive : ∀ entry ∈ totals, 0 ≤ entry.2.1 ∧ 0 ≤ entry.2.2) {today : Int} :
    ∀ credit ∈ credits owners rows today totals, 0 ≤ credit.amount.1 ∧ 0 ≤ credit.amount.2 := by
  intro credit member
  obtain ⟨reading, read, made⟩ := List.mem_filterMap.mp member
  obtain ⟨owner, -, made⟩ := Option.bind_eq_some_iff.mp made
  split at made
  next =>
    cases made
    exact added_nonneg (positive reading read).1 (positive reading read).2
  next => cases made

theorem sumWhere_nonneg (test : Credit → Bool)
    (amounts : ∀ credit ∈ ledger, 0 ≤ credit.amount.1 ∧ 0 ≤ credit.amount.2) :
    0 ≤ (sumWhere test ledger).1 ∧ 0 ≤ (sumWhere test ledger).2 := by
  induction ledger with
  | nil => exact ⟨le_rfl, le_rfl⟩
  | cons credit ledger ih =>
      have rest := ih fun other member => amounts other (List.mem_cons_of_mem _ member)
      have first := amounts credit List.mem_cons_self
      rw [sumWhere_cons]
      split
      next => exact ⟨add_nonneg first.1 rest.1, add_nonneg first.2 rest.2⟩
      next => exact rest

theorem Held.recordTotals (lowercase : Lowercase lower) (held : Held counts served rows ledger)
    (now : Time) (promised : Promised counts served ⟨now, .read totals, rows, ledger⟩) :
    Held counts served (Traffic.recordTotals lower totals owners now rows).1
      (ledger ++ credits owners rows (date now) (readings lower totals)) := by
  obtain ⟨nodup, clean, covered⟩ := promised
  have whole : readings lower totals = totals := readings_eq lowercase nodup clean
  have positive := fun entry member => (clean entry member).2
  constructor
  case covered =>
    intro host
    rw [whole]
    have next : Covered (totalOf totals host)
        (credited (ledger ++ credits owners rows (date now) totals) host) (counts host)
        (served host) := (covered host).mono (credited_append_le nodup positive (date now) host)
    cases read : totals.lookup host with
    | some total =>
        have recorded : baseline ((Traffic.recordTotals lower totals owners now rows).1.counters host) =
          total := baseline_recorded (by rw [whole, read])
        rw [recorded]
        rwa [show totalOf totals host = total by rw [totalOf, read, Option.getD_some]] at next
    | none =>
        have either := @counters_recorded owners rows lower totals now host (by rw [whole, read])
        rcases either with same | dropped
        · rw [same, credited_append nodup, read]
          exact held.covered host
        · rw [dropped]
          rwa [show totalOf totals host = (0, 0) by rw [totalOf, read, Option.getD_none]] at next
  case baselines =>
    intro host
    cases read : totals.lookup host with
    | some total =>
        have recorded : baseline ((Traffic.recordTotals lower totals owners now rows).1.counters host) =
          total := baseline_recorded (by rw [whole, read])
        rw [recorded]
        have start := totalOf_nonneg positive host
        rwa [totalOf, read, Option.getD_some] at start
    | none =>
        have either := @counters_recorded owners rows lower totals now host (by rw [whole, read])
        rcases either with same | dropped
        · rw [same]
          exact held.baselines host
        · rw [dropped]
          exact ⟨le_rfl, le_rfl⟩
  case amounts =>
    rw [whole]
    intro credit member
    rcases List.mem_append.mp member with old | new
    · exact held.amounts credit old
    · exact credits_nonneg positive credit new
  case days =>
    intro application day row kept
    have before := sumWhere_nonneg (fun credit => credit.application = application && credit.day = day)
      held.amounts
    rw [recordTotals_days kept, creditedOn, sumWhere_append]
    cases found : rows.days application day with
    | none =>
        simp only [Option.getD_none]
        omega
    | some old =>
        have bound := held.days application day old found
        unfold creditedOn at bound
        simp only [Option.getD_some]
        omega

end Recording

/-! ## Never more than was served -/

section Runs

variable {lower : String → String} {state after : State} {action : Action}

theorem Reported.lookup {counts : String → Amount} {totals : Totals}
    (reported : Reported counts totals) {host : String} (listed : host ∈ totals.map (·.1)) :
    totals.lookup host = some (counts host) := by
  cases found : totals.lookup host with
  | some total =>
      obtain ⟨_, _, rows, -⟩ := List.lookup_eq_some_iff.mp found
      have member : (host, total) ∈ totals := by
        rw [rows]
        exact List.mem_append_right _ List.mem_cons_self
      rw [reported.counts_eq _ member]
  | none =>
      obtain ⟨entry, member, named⟩ := List.mem_map.mp listed
      rw [List.lookup_eq_none_iff] at found
      exact absurd named.symm (by simpa using found entry member)

theorem Reported.totalOf {counts : String → Amount} {totals : Totals}
    (reported : Reported counts totals) (host : String) : totalOf totals host = counts host := by
  by_cases listed : host ∈ totals.map (·.1)
  · rw [Traffic.totalOf, reported.lookup listed, Option.getD_some]
  · have absent : totals.lookup host = none := by
      rw [List.lookup_eq_none_iff]
      intro entry member
      rw [bne_iff_ne]
      intro named
      exact listed (List.mem_map.mpr ⟨entry, member, named.symm⟩)
    rw [Traffic.totalOf, absent, Option.getD_none]
    by_contra counted
    exact listed (reported.complete host (Ne.symm counted))

/-- Totals that Caddy reports keep what a reading promises. -/
theorem Held.readTotals {counts served : String → Amount} {totals : Totals} {run : Transaction}
    (held : Held counts served run.rows run.ledger)
    (positive : ∀ host, 0 ≤ (counts host).1 ∧ 0 ≤ (counts host).2)
    (reported : Reported counts totals) :
    Promised counts served { run with phase := .read totals } := by
  refine ⟨reported.nodup, fun entry member => ⟨reported.hosts entry member, ?_⟩, fun host => ?_⟩
  · rw [← reported.counts_eq entry member]
    exact positive entry.1
  · rw [reported.totalOf]
    exact (held.covered host).read (held.baselines host).1 (held.baselines host).2

theorem Held.resetBaselines {counts served : String → Amount} {rows : Rows} {ledger : List Credit}
    (held : Held counts served rows ledger)
    (restarted : ∀ host, Covered (0, 0) (credited ledger host) (counts host) (served host)) :
    Held counts served (Traffic.resetBaselines rows) ledger where
  covered host := by
    rw [baseline_resetBaselines]
    exact restarted host
  baselines host := by
    rw [baseline_resetBaselines]
    exact ⟨le_rfl, le_rfl⟩
  amounts := held.amounts
  days := held.days

/-- Only the phase of the run changes, to one that promises nothing. -/
theorem Sound.phase (sound : Sound state) {now : Time} {before phase : Phase} {rows : Rows}
    {ledger : List Credit} (running : state.run = some ⟨now, before, rows, ledger⟩)
    (promises : phase = .locked ∨ phase = .applying ∨ phase = .finished) :
    Sound { state with run := some ⟨now, phase, rows, ledger⟩ } where
  counts := sound.counts
  stored := sound.stored
  run run same := by
    cases same
    refine ⟨(sound.run _ running).1, ?_⟩
    rcases promises with rfl | rfl | rfl <;> trivial

theorem Sound.step (lowercase : Lowercase lower) (sound : Sound state)
    (performed : perform lower state action = some after) (faithful : Faithful state action after) :
    Sound after := by
  have zero : ∀ _ : String, 0 ≤ ((0, 0) : Amount).1 ∧ 0 ≤ ((0, 0) : Amount).2 :=
    fun _ => ⟨le_rfl, le_rfl⟩
  cases action with
  | serve host bytes =>
      cases performed
      apply sound.moves (moves_serve host bytes)
      intro other
      unfold count?
      have before := sound.counts other
      split
      next => dsimp only; omega
      next => exact before
  | restart =>
      cases performed
      exact sound.moves (moves_restart sound.counts) zero
  | claim owners =>
      cases performed
      exact ⟨sound.counts, sound.stored, sound.run⟩
  | start now =>
      rw [perform] at performed
      split at performed
      next =>
        cases performed
        refine ⟨sound.counts, sound.stored, fun run same => ?_⟩
        cases same
        exact ⟨sound.stored, trivial⟩
      next => cases performed
  | readTotals totals =>
      rw [perform] at performed
      split at performed
      next now rows ledger running =>
        cases performed
        have held := (sound.run _ running).1
        refine ⟨sound.counts, sound.stored, fun run same => ?_⟩
        cases same
        exact ⟨held, held.readTotals sound.counts faithful⟩
      next => cases performed
  | readFailed =>
      rw [perform] at performed
      split at performed
      next running =>
        cases performed
        exact sound.phase running (by simp)
      next => cases performed
  | recordTotals =>
      rw [perform] at performed
      split at performed
      next now totals rows ledger running =>
        cases performed
        obtain ⟨held, promised⟩ := sound.run _ running
        refine ⟨sound.counts, sound.stored, fun run same => ?_⟩
        cases same
        exact ⟨held.recordTotals lowercase now promised, trivial⟩
      next => cases performed
  | recordFailed =>
      rw [perform] at performed
      split at performed
      next running =>
        cases performed
        exact sound.phase running (by simp)
      next => cases performed
  | kept =>
      rw [perform] at performed
      split at performed
      next running =>
        cases performed
        exact sound.phase running (by simp)
      next => cases performed
  | lost =>
      rw [perform] at performed
      split at performed
      next running =>
        cases performed
        exact (sound.moves (moves_restart sound.counts) zero).phase running (by simp)
      next => cases performed
  | applied =>
      rw [perform] at performed
      split at performed
      next now rows ledger running =>
        cases performed
        have held := (sound.run _ running).1
        have moves : Moves state.counts state.served (fun _ => (0, 0)) state.served :=
          moves_restart sound.counts
        refine ⟨zero, sound.stored.moves moves, fun run same => ?_⟩
        cases same
        refine ⟨held.moves moves, fun host => ?_⟩
        exact (held.covered host).restart (sound.counts host).1 (sound.counts host).2 _
      next => cases performed
  | resetBaselines =>
      rw [perform] at performed
      split at performed
      next running =>
        cases performed
        obtain ⟨held, promised⟩ := sound.run _ running
        refine ⟨sound.counts, sound.stored, fun run same => ?_⟩
        cases same
        exact ⟨held.resetBaselines promised, trivial⟩
      next => cases performed
  | resetFailed =>
      rw [perform] at performed
      split at performed
      next running =>
        cases performed
        exact sound.phase running (by simp)
      next => cases performed
  | commit =>
      rw [perform] at performed
      split at performed
      next running =>
        cases performed
        exact ⟨sound.counts, (sound.run _ running).1, fun run same => by cases same⟩
      next => cases performed
  | abort =>
      rw [perform] at performed
      split at performed
      next =>
        cases performed
        exact ⟨sound.counts, sound.stored, fun run same => by cases same⟩
      next => cases performed

theorem sound_initial (owners : String → Option Uuid) : Sound (.initial owners) where
  counts _ := ⟨le_rfl, le_rfl⟩
  stored :=
    { covered _ := .inr ⟨le_rfl, le_rfl⟩
      baselines _ := ⟨le_rfl, le_rfl⟩
      amounts _ member := by cases member
      days _ _ _ found := by cases found }
  run _ running := by cases running

theorem sound_of_reaches (lowercase : Lowercase lower) {owners : String → Option Uuid}
    (reaches : Reaches (perform lower) Faithful (.initial owners) state) : Sound state :=
  reaches.keeps Sound (sound_initial owners) fun performed faithful sound =>
    sound.step lowercase performed faithful

end Runs

/-! ## Exactly what was served -/

/-- A step without a restart, a new configuration, a change of the hostname's owner or a reading of
the hostname. -/
def Uninterrupted (host : String) (owner : Uuid) (state : State) (action : Action) (after : State) :
    Prop :=
  Faithful state action after ∧
  match action with
  | .restart | .lost | .applied => False
  | .claim owners => owners host = some owner
  | .recordTotals => ∀ now totals rows ledger, state.run = some ⟨now, .read totals, rows, ledger⟩ →
      host ∉ totals.map (·.1)
  | _ => True

/-- In addition, the transaction is not rolled back. -/
def Lasting (host : String) (owner : Uuid) (state : State) (action : Action) (after : State) :
    Prop :=
  Uninterrupted host owner state action after ∧ action ≠ .abort

/-- In addition, the reconciler does nothing. -/
def Waiting (host : String) (owner : Uuid) (state : State) (action : Action) (after : State) :
    Prop :=
  Uninterrupted host owner state action after ∧ after.run = state.run

/-- A reading of a hostname: Caddy reports its totals, and they are recorded. -/
structure Reading (lower : String → String) (host : String) (owner : Uuid) (before after : State) :
    Prop where
  reading : ∃ totals asked waited, host ∈ totals.map (·.1) ∧ Reported before.counts totals ∧
    perform lower before (.readTotals totals) = some asked ∧
    Reaches (perform lower) (Waiting host owner) asked waited ∧
    perform lower waited .recordTotals = some after

/-- The counters and what was served go on together. -/
structure Onward (host : String) (owner : Uuid) (before after : State) : Prop where
  owner : after.owners host = some owner
  gap : (after.served host).1 - (after.counts host).1 =
      (before.served host).1 - (before.counts host).1 ∧
    (after.served host).2 - (after.counts host).2 =
      (before.served host).2 - (before.counts host).2
  grown : (before.counts host).1 ≤ (after.counts host).1 ∧
    (before.counts host).2 ≤ (after.counts host).2

section Exact

variable {lower : String → String} {host : String} {owner : Uuid} {before state after : State}
  {action : Action}

theorem Onward.refl (owned : state.owners host = some owner) : Onward host owner state state :=
  ⟨owned, ⟨rfl, rfl⟩, ⟨le_rfl, le_rfl⟩⟩

theorem Onward.same (onward : Onward host owner before state) (owners : after.owners = state.owners)
    (counts : after.counts = state.counts) (served : after.served = state.served) :
    Onward host owner before after := by
  obtain ⟨owned, gap, grown⟩ := onward
  exact ⟨by rw [owners, owned], by rw [counts, served]; exact gap, by rw [counts]; exact grown⟩

theorem Onward.step (onward : Onward host owner before state)
    (performed : perform lower state action = some after)
    (calm : Uninterrupted host owner state action after) : Onward host owner before after := by
  cases action with
  | serve other bytes =>
      cases performed
      obtain ⟨owned, gap, grown⟩ := onward
      refine ⟨owned, ?_, ?_⟩
      · dsimp only [count?]
        split
        next => dsimp only; omega
        next => exact gap
      · dsimp only [count?]
        split
        next => dsimp only; omega
        next => exact grown
  | restart => exact calm.2.elim
  | claim owners =>
      cases performed
      exact ⟨calm.2, onward.gap, onward.grown⟩
  | lost => exact calm.2.elim
  | applied => exact calm.2.elim
  | start | readTotals | readFailed | recordTotals | recordFailed | kept | resetBaselines
  | resetFailed | commit | abort =>
      rw [perform] at performed
      split at performed
      all_goals
        first
        | cases performed; done
        | cases performed
          exact onward.same rfl rfl rfl

/-- The baseline of the hostname in the rows of the run, and in the stored rows once they are
committed. -/
structure Pinned (host : String) (total : Amount) (committed : Bool) (state : State) : Prop where
  working : ∀ run, state.run = some run → baseline (run.rows.counters host) = total ∧
    run.phase ≠ .resetting ∧
    ∀ totals, run.phase = .read totals → host ∉ totals.map (·.1) → total = (0, 0)
  stored : committed = true ∨ state.run = none → baseline (state.rows.counters host) = total

/-- The next phase of the run, where that is neither a reading nor a reset. -/
theorem Pinned.phase {total : Amount} {committed : Bool} {now : Time} {phase next : Phase}
    {rows : Rows} {ledger : List Credit} (pinned : Pinned host total committed state)
    (running : state.run = some ⟨now, phase, rows, ledger⟩)
    (plain : next = .applying ∨ next = .finished) :
    Pinned host total committed { state with run := some ⟨now, next, rows, ledger⟩ } where
  working run same := by
    cases same
    refine ⟨(pinned.working _ running).1, ?_⟩
    rcases plain with rfl | rfl
    · exact ⟨by simp, by simp⟩
    · exact ⟨by simp, by simp⟩
  stored known := by
    rcases known with committed | idle
    · exact pinned.stored (.inl committed)
    · cases idle

theorem Pinned.step {total : Amount} {committed : Bool} (lowercase : Lowercase lower)
    (pinned : Pinned host total committed state) (sound : Sound state)
    (small : total.1 ≤ (state.counts host).1 ∧ total.2 ≤ (state.counts host).2)
    (positive : 0 ≤ total.1 ∧ 0 ≤ total.2)
    (performed : perform lower state action = some after)
    (calm : Uninterrupted host owner state action after)
    (lasting : committed = true ∨ action ≠ .abort) : Pinned host total committed after := by
  cases action with
  | serve other bytes =>
      cases performed
      exact ⟨pinned.working, pinned.stored⟩
  | claim owners =>
      cases performed
      exact ⟨pinned.working, pinned.stored⟩
  | restart => exact calm.2.elim
  | lost => exact calm.2.elim
  | applied => exact calm.2.elim
  | start now =>
      rw [perform] at performed
      split at performed
      next idle =>
        cases performed
        have stored := pinned.stored (.inr idle)
        refine ⟨fun run same => ?_, fun _ => stored⟩
        cases same
        exact ⟨stored, by simp, by simp⟩
      next => cases performed
  | readTotals totals =>
      rw [perform] at performed
      split at performed
      next now rows ledger running =>
        cases performed
        have stored := pinned.stored
        rw [running] at stored
        refine ⟨fun run same => ?_, fun known => stored (known.imp_right (by simp))⟩
        cases same
        refine ⟨(pinned.working _ running).1, by simp, fun read same absent => ?_⟩
        cases same
        have reported : Reported state.counts totals := calm.1
        have zero : state.counts host = (0, 0) := by
          by_contra counted
          exact absent (reported.complete host counted)
        rw [zero] at small
        exact Prod.ext (le_antisymm small.1 positive.1) (le_antisymm small.2 positive.2)
      next => cases performed
  | recordTotals =>
      rw [perform] at performed
      split at performed
      next now totals rows ledger running =>
        cases performed
        obtain ⟨same, -, unread⟩ := pinned.working _ running
        obtain ⟨nodup, clean, -⟩ := (sound.run _ running).2
        have absent : host ∉ totals.map (·.1) := calm.2 _ _ _ _ running
        have unlisted : (readings lower totals).lookup host = none := by
          rw [readings_eq lowercase nodup clean, List.lookup_eq_none_iff]
          intro entry member
          rw [bne_iff_ne]
          intro named
          exact absent (List.mem_map.mpr ⟨entry, member, named.symm⟩)
        have either := @counters_recorded state.owners rows lower totals now host unlisted
        have stored := pinned.stored
        rw [running] at stored
        refine ⟨fun run same_ => ?_, fun known => stored (known.imp_right (by simp))⟩
        cases same_
        refine ⟨?_, by simp, by simp⟩
        rcases either with kept | dropped
        · rw [kept]
          exact same
        · rw [dropped, unread totals rfl absent]
          rfl
      next => cases performed
  | resetBaselines =>
      rw [perform] at performed
      split at performed
      next running => exact absurd rfl (pinned.working _ running).2.1
      next => cases performed
  | resetFailed =>
      rw [perform] at performed
      split at performed
      next running => exact absurd rfl (pinned.working _ running).2.1
      next => cases performed
  | readFailed | recordFailed | kept =>
      rw [perform] at performed
      split at performed
      next running =>
        cases performed
        exact pinned.phase running (by simp)
      next => cases performed
  | commit =>
      rw [perform] at performed
      split at performed
      next running =>
        cases performed
        exact ⟨fun run same => (by cases same), fun _ => (pinned.working _ running).1⟩
      next => cases performed
  | abort =>
      rw [perform] at performed
      split at performed
      next =>
        cases performed
        have stored := pinned.stored (lasting.imp_right fun other => absurd rfl other)
        exact ⟨fun run same => (by cases same), fun _ => stored⟩
      next => cases performed

theorem recordTotals_run {now : Time} {totals : Totals} {rows : Rows} {ledger : List Credit}
    (running : state.run = some ⟨now, .read totals, rows, ledger⟩)
    (performed : perform lower state .recordTotals = some after) :
    after = { state with
      run := some ⟨now, .applying, (Traffic.recordTotals lower totals state.owners now rows).1,
        ledger ++ credits state.owners rows (date now) (readings lower totals)⟩ } := by
  rw [perform, running] at performed
  exact (Option.some.inj performed).symm

theorem credits_owner {today : Int} {owners : String → Option Uuid} {rows : Rows} {totals : Totals}
    (owned : owners host = some owner) : ∀ credit ∈ credits owners rows today totals,
      credit.host = host → credit.application = owner := by
  intro credit member named
  obtain ⟨reading, -, made⟩ := List.mem_filterMap.mp member
  obtain ⟨other, known, made⟩ := Option.bind_eq_some_iff.mp made
  split at made
  next =>
    cases made
    change reading.1 = host at named
    rw [named, owned] at known
    exact (Option.some.inj known).symm
  next => cases made

/-- The new credits are of the day of the transaction, and the row of every application of this day
grows by exactly what is credited to the application. -/
def Grows (run next : Transaction) (new : List Credit) : Prop :=
  (∀ credit ∈ new, credit.day = date run.now) ∧
  ∀ application, (next.rows.days application (date run.now)).getD (0, 0) =
    (run.rows.days application (date run.now)).getD (0, 0) +
      creditedOn new application (date run.now)

/-- A reading pins the hostname's baseline at Caddy's counters, and credits the hostname with what was
added to the baseline before. -/
theorem Reading.credits (lowercase : Lowercase lower) (sound : Sound before)
    (owned : before.owners host = some owner) (reading : Reading lower host owner before after) :
    Sound after ∧ Onward host owner before after ∧ ∃ run next new, before.run = some run ∧
      after.run = some next ∧ next.phase = .applying ∧ next.ledger = run.ledger ++ new ∧
      baseline (next.rows.counters host) = before.counts host ∧
      Grows run next new ∧
      (∀ credit ∈ new, credit.host = host → credit.application = owner) ∧
      credited new host = added (baseline (run.rows.counters host)) (before.counts host) := by
  obtain ⟨totals, asked, waited, listed, reported, read, waiting, recorded⟩ := reading.reading
  have calm : Uninterrupted host owner before (.readTotals totals) asked := ⟨reported, trivial⟩
  have first := (Onward.refl owned).step read calm
  have asks := sound.step lowercase read reported
  obtain ⟨waits, onward, unchanged⟩ := waiting.keeps
    (fun state => Sound state ∧ Onward host owner before state ∧ state.run = asked.run)
    ⟨asks, first, rfl⟩ fun performed calm kept =>
      ⟨kept.1.step lowercase performed calm.1.1, kept.2.1.step performed calm.1,
        calm.2.trans kept.2.2⟩
  have after_ := waits.step lowercase recorded trivial
  rw [perform] at read
  split at read
  next now rows ledger running =>
    cases read
    obtain ⟨nodup, clean, -⟩ := (waits.run _ unchanged).2
    have whole := readings_eq lowercase nodup clean
    rw [recordTotals_run unchanged recorded] at after_ ⊢
    have found := reported.lookup listed
    refine ⟨after_, onward.same rfl rfl rfl, _, _, _, running, rfl, rfl, rfl, ?_, ?_, ?_, ?_⟩
    · exact baseline_recorded (by rw [whole, found])
    · exact ⟨credits_day, fun application => recordTotals_today⟩
    · exact credits_owner onward.owner
    · rw [whole, credited, sumWhere_credits (date now) nodup host, found, onward.owner]
  next => cases read

/-- Over any run, what is credited for a hostname was served for it, and the rows hold nothing but
credits.  Between two readings of a hostname without a restart, a new configuration or a change of its
owner, the second credits its owner with exactly what was served in between, and the owner's row of the
day grows by exactly what is credited. -/
theorem traffic_never_over_counted (lowercase : Lowercase lower) {owners : String → Option Uuid}
    (reached : Reaches (perform lower) Faithful (.initial owners) state) :
    (∀ host, (credited state.ledger host).1 ≤ (state.served host).1 ∧
      (credited state.ledger host).2 ≤ (state.served host).2) ∧
    (∀ application day row, state.rows.days application day = some row →
      row.1 ≤ (creditedOn state.ledger application day).1 ∧
        row.2 ≤ (creditedOn state.ledger application day).2) ∧
    ∀ host owner first finished committed again second,
      state.owners host = some owner → Reading lower host owner state first →
      Reaches (perform lower) (Lasting host owner) first finished →
      perform lower finished .commit = some committed →
      Reaches (perform lower) (Uninterrupted host owner) committed again →
      Reading lower host owner again second →
      ∃ run next new, again.run = some run ∧ second.run = some next ∧
        next.ledger = run.ledger ++ new ∧
        Grows run next new ∧
        (∀ credit ∈ new, credit.host = host → credit.application = owner) ∧
        credited new host = ((again.served host).1 - (state.served host).1,
          (again.served host).2 - (state.served host).2) := by
  have sound := sound_of_reaches lowercase reached
  refine ⟨fun host => ?_, sound.stored.days, ?_⟩
  · exact (sound.stored.covered host).le_served (sound.counts host).1 (sound.counts host).2
  · intro host owner first finished committed again second owned reading lasting commits calm rereading
    obtain ⟨firstSound, onward, run, next, _, -, running, phase, -, base, -, -, -⟩ :=
      reading.credits lowercase sound owned
    have positive := sound.counts host
    have started : Pinned host (state.counts host) false first := by
      constructor
      case working =>
        intro other same
        obtain rfl : next = other := Option.some.inj (running.symm.trans same)
        rw [phase]
        exact ⟨base, by simp, by simp⟩
      case stored =>
        intro known
        rw [running] at known
        simp at known
    obtain ⟨endSound, endOnward, pinned⟩ := lasting.keeps
      (fun middle => Sound middle ∧ Onward host owner state middle ∧
        Pinned host (state.counts host) false middle)
      ⟨firstSound, onward, started⟩ fun performed calm kept =>
        ⟨kept.1.step lowercase performed calm.1.1, kept.2.1.step performed calm.1,
          kept.2.2.step lowercase kept.1 kept.2.1.grown positive performed calm.1 (.inr calm.2)⟩
    have commitCalm : Uninterrupted host owner finished .commit committed := ⟨trivial, trivial⟩
    have stored : Pinned host (state.counts host) true committed := by
      rw [perform] at commits
      split at commits
      next running =>
        cases commits
        exact ⟨fun run same => (by cases same), fun _ => (pinned.working _ running).1⟩
      next => cases commits
    obtain ⟨againSound, againOnward, againPinned⟩ := calm.keeps
      (fun middle => Sound middle ∧ Onward host owner state middle ∧
        Pinned host (state.counts host) true middle)
      ⟨endSound.step lowercase commits trivial, endOnward.step commits commitCalm, stored⟩
      fun performed calm kept =>
        ⟨kept.1.step lowercase performed calm.1, kept.2.1.step performed calm,
          kept.2.2.step lowercase kept.1 kept.2.1.grown positive performed calm (.inl rfl)⟩
    obtain ⟨-, -, run, next, new, running, recorded, -, ledger, -, grows, application, amount⟩ :=
      rereading.credits lowercase againSound againOnward.owner
    refine ⟨run, next, new, running, recorded, ledger, grows, application, ?_⟩
    rw [amount, (againPinned.working run running).1, added, if_neg (by have := againOnward.grown; omega)]
    have gap := againOnward.gap
    exact Prod.ext (by dsimp only; omega) (by dsimp only; omega)

end Exact

/-- A hostname of the application `1`, read after one request and again after a second one. -/
theorem traffic_never_over_counted_twice :
    ∃ new : List Credit, (∀ credit ∈ new, credit.host = "a" → credit.application = 1) ∧
      credited new "a" = (1, 20) := by
  have named : ∀ character ∈ "a".toList, isHostCharacter character = true := by
    intro character member
    rw [show character = 'a' by simpa using member]
    rfl
  have once : Reported (count? "a" 10 fun _ => (0, 0)) [("a", 1, 10)] := by
    constructor
    case nodup => decide
    case hosts =>
      intro entry member
      rw [List.mem_singleton.mp member]
      exact named
    case counts_eq => decide
    case complete =>
      intro host counted
      by_contra other
      exact counted (if_neg (by simpa using other))
  have twice : Reported (count? "a" 20 (count? "a" 10 fun _ => (0, 0))) [("a", 2, 30)] := by
    constructor
    case nodup => decide
    case hosts =>
      intro entry member
      rw [List.mem_singleton.mp member]
      exact named
    case counts_eq => decide
    case complete =>
      intro host counted
      by_contra other
      have different : host ≠ "a" := by simpa using other
      exact counted (by simp [count?, different])
  have reached : Reaches (perform PythonText.lower) Faithful (.initial fun _ => some 1) _ :=
    .step (.step .start (rfl : perform _ _ (.serve "a" 10) = _) named) (rfl : perform _ _ (.start 0) = _) trivial
  obtain ⟨-, -, readings⟩ := traffic_never_over_counted lower_lowercase reached
  obtain ⟨_, _, new, _, _, _, _, owned, amount⟩ := readings "a" 1 _ _ _ _ _ rfl
    ⟨_, _, _, List.mem_singleton_self _, once, rfl, .start, rfl⟩
    (.step .start (rfl : perform _ _ (.kept) = _) ⟨⟨trivial, trivial⟩, by simp⟩) rfl
    (.step (.step .start (rfl : perform _ _ (.serve "a" 20) = _) ⟨named, trivial⟩) (rfl : perform _ _ (.start 60) = _)
      ⟨trivial, trivial⟩)
    ⟨_, _, _, List.mem_singleton_self _, twice, rfl, .start, rfl⟩
  exact ⟨new, owned, amount⟩

end CustomDomain.Traffic
