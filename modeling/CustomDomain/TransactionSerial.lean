import CustomDomain.TransactionInterleaving

/-!
# Transactions that read apart are serial

A transaction may first run statements that neither look at the rows nor change
them, such as taking a lock.  It reads from the statement after these to its
end.  If no transaction takes its first read while another one is reading, the
committed rows are those of the committed transactions run one after the other,
in the order of their commits.
-/

namespace Transaction

open Relation

variable {W : World} {ι α : Type}

/-- The first statements, as many as given, neither look at the rows nor change
them. -/
def Program.Blind : Nat → Program W α → Prop
  | 0, _ => True
  | count + 1, program => ∃ rows next,
      program = .write rows (fun _ db => db) (fun _ => next) ∧ next.Blind count

/-- The transactions run alone, one after the other, and each of them returns. -/
def RunsSerially (program : ι → Program W α) : W.Db → List ι → W.Db → Prop
  | db, [], last => last = db
  | db, index :: order, last => ∃ value after,
      (program index).run db = (.ok value, after) ∧ RunsSerially program after order last

theorem RunsSerially.snoc {program : ι → Program W α} {db mid last : W.Db} {order : List ι}
    {index : ι} {value : α} (runs : RunsSerially program db order mid)
    (ran : (program index).run mid = (.ok value, last)) :
    RunsSerially program db (order ++ [index]) last := by
  induction order generalizing db with
  | nil =>
      cases runs
      exact ⟨value, last, ran, rfl⟩
  | cons first order ih =>
      obtain ⟨value', after, ran', rest⟩ := runs
      exact ⟨value', after, ran', ih rest⟩

/-- What every one of them keeps, they keep together. -/
theorem RunsSerially.keeps {program : ι → Program W α} {db last : W.Db} {order : List ι}
    (runs : RunsSerially program db order last) (holds : W.Db → Prop) (start : holds db)
    (step : ∀ index db value after, holds db → (program index).run db = (.ok value, after) →
      holds after) : holds last := by
  induction order generalizing db with
  | nil =>
      cases runs
      exact start
  | cons index order ih =>
      obtain ⟨value, after, ran, rest⟩ := runs
      exact ih rest (step index db value after start ran)

namespace State

/-- Between its first read and its end; the transaction's first `blind`
statements are not reads. -/
def Reading (blind : ι → Nat) (state : State W ι α) (index : ι) : Prop :=
  (state.session index).status = .running ∧ blind index < (state.session index).executed

/-- A first read is taken only while no other transaction is reading. -/
def ReadsApart (blind : ι → Nat) (state : State W ι α) (index : ι) : Prop :=
  (state.session index).executed = blind index → ∀ other, other ≠ index →
    ¬ state.Reading blind other

instance (blind : ι → Nat) (state : State W ι α) (index : ι) :
    Decidable (state.Reading blind index) :=
  inferInstanceAs (Decidable (_ ∧ _))

instance [Fintype ι] [DecidableEq ι] (blind : ι → Nat) (state : State W ι α) (index : ι) :
    Decidable (ReadsApart blind state index) :=
  inferInstanceAs (Decidable (_ → ∀ _, _ → _))

/-- The transaction has not looked at the rows: it will run as if it started
now, whatever the rows are. -/
structure Unread (blind : ι → Nat) (program : ι → Program W α) (state : State W ι α)
    (index : ι) : Prop where
  run : ∀ db, (state.session index).program.run ((state.session index).pending db) =
    (program index).run db
  blind : (state.session index).program.Blind (blind index - (state.session index).executed)

/-- What holds throughout such a run. -/
structure Serial (blind : ι → Nat) (program : ι → Program W α) (db : W.Db)
    (state : State W ι α) : Prop where
  order : ∃ order : List ι, order.Nodup ∧
    (∀ index, index ∈ order ↔ (state.session index).status = .committed) ∧
    RunsSerially program db order state.committed
  current : ∀ index, (state.session index).status = .running →
    state.remaining index = (program index).run state.committed
  unread : ∀ index, (state.session index).status = .running →
    (state.session index).executed ≤ blind index → state.Unread blind program index
  alone : ∀ first second, first ≠ second → state.Reading blind first →
    ¬ state.Reading blind second

variable {blind : ι → Nat} {program : ι → Program W α} {db : W.Db} {state : State W ι α}

theorem start_serial (starts : ∀ index, (program index).Blind (blind index)) :
    Serial blind program db (start db program) where
  order := ⟨[], List.nodup_nil, fun index => by simp [start, Session.start], rfl⟩
  current _ _ := rfl
  unread index _ _ := ⟨fun _ => rfl, starts index⟩
  alone first second _ reading := by simp [Reading, start, Session.start] at reading

theorem Unread.frame {next : State W ι α} {index : ι}
    (unread : state.Unread blind program index)
    (same : next.session index = state.session index) : next.Unread blind program index :=
  ⟨by rw [same]; exact unread.run, by rw [same]; exact unread.blind⟩

theorem Reading.frame {next : State W ι α} {index : ι}
    (same : next.session index = state.session index) :
    next.Reading blind index ↔ state.Reading blind index := by
  unfold Reading
  rw [same]

/-- A transaction that is not reading runs as if it started now. -/
theorem Unread.remaining {index : ι} (unread : state.Unread blind program index) :
    state.remaining index = (program index).run state.committed :=
  unread.run state.committed

variable [DecidableEq ι]

/-- A blind statement leaves the transaction unread. -/
theorem Unread.advance_self {index : ι} (unread : state.Unread blind program index)
    (running : ((state.advance index).session index).status = .running)
    (early : (state.session index).executed < blind index) :
    (state.advance index).Unread blind program index := by
  have executed := executed_advance_self running
  obtain ⟨left, count⟩ : ∃ left, blind index - (state.session index).executed = left + 1 :=
    ⟨blind index - (state.session index).executed - 1, by omega⟩
  have starts := unread.blind
  rw [count] at starts
  obtain ⟨rows, next, shape, blindNext⟩ := starts
  have after : (state.advance index).session index =
      { state.session index with
        program := next
        locks := (state.session index).locks ++ rows (state.view index)
        executed := (state.session index).executed + 1 } := by
    rw [advance_session_self]
    unfold Session.execute
    rw [shape]
    rfl
  constructor
  · intro db
    have run := unread.run db
    rw [shape] at run
    rw [after]
    exact run
  · rw [executed, after]
    have left' : blind index - ((state.session index).executed + 1) = left := by omega
    rw [left']
    exact blindNext

/-- Only one transaction reads after a step that kept to `ReadsApart`. -/
theorem Serial.alone_advance {index : ι} (serial : Serial blind program db state)
    (running : (state.session index).status = .running) (apart : ReadsApart blind state index) :
    ∀ first second, first ≠ second → (state.advance index).Reading blind first →
      ¬ (state.advance index).Reading blind second := by
  -- Whoever reads after the step while another one does was reading before it.
  have others : ∀ other, other ≠ index → (state.advance index).Reading blind index →
      ¬ (state.advance index).Reading blind other := by
    intro other distinct reading
    rw [Reading.frame (advance_session_of_ne state index distinct)]
    have executed := executed_advance_self reading.1
    by_cases first : (state.session index).executed = blind index
    · exact apart first other distinct
    · refine serial.alone index other distinct.symm ⟨running, ?_⟩
      have := reading.2
      omega
  intro first second distinct reading
  by_cases moved : first = index
  · subst moved
    exact others second distinct.symm reading
  · by_cases moved' : second = index
    · subst moved'
      exact fun reading' => others first moved reading' reading
    · rw [Reading.frame (advance_session_of_ne state index moved)] at reading
      rw [Reading.frame (advance_session_of_ne state index moved')]
      exact serial.alone first second distinct reading

/-- A step that does not commit. -/
theorem Serial.advance_of_not_commits {index : ι} (serial : Serial blind program db state)
    (running : (state.session index).status = .running) (apart : ReadsApart blind state index)
    (open_ : (state.session index).commits = false) :
    Serial blind program db (state.advance index) := by
  have committed := advance_committed_of_not_commits state index open_
  have unfinished : ((state.advance index).session index).status ≠ .committed := by
    rw [advance_session_self]
    unfold Session.commits at open_
    unfold Session.execute
    split <;> simp_all [Session.finish]
  constructor
  case order =>
    obtain ⟨order, nodup, members, serialized⟩ := serial.order
    refine ⟨order, nodup, fun other => ?_, by rwa [committed]⟩
    rw [members]
    by_cases same : other = index
    · subst same
      rw [running]
      exact iff_of_false (by simp) unfinished
    · rw [advance_session_of_ne state index same]
  case current =>
    intro other still
    rw [committed]
    by_cases same : other = index
    · subst same
      rw [remaining_advance_self still]
      exact serial.current other running
    · rw [remaining_advance_other same open_]
      rw [advance_session_of_ne state index same] at still
      exact serial.current other still
  case unread =>
    intro other still early
    by_cases same : other = index
    · subst same
      have executed := executed_advance_self still
      exact (serial.unread other running (by omega)).advance_self still (by omega)
    · have frame := advance_session_of_ne state index same
      rw [frame] at still early
      exact (serial.unread other still early).frame frame
  case alone => exact serial.alone_advance running apart

/-- A commit is the transaction run alone on what was committed before. -/
theorem Serial.advance_of_commits {index : ι} (serial : Serial blind program db state)
    (running : (state.session index).status = .running) (apart : ReadsApart blind state index)
    (commits : (state.session index).commits = true) :
    Serial blind program db (state.advance index) := by
  have committed := advance_committed_of_commits state index commits
  obtain ⟨value, shape⟩ : ∃ value, (state.session index).program = .pure value := by
    unfold Session.commits at commits
    split at commits
    next value shape => exact ⟨value, shape⟩
    next => cases commits
  have ended : ((state.advance index).session index).status = .committed := by
    rw [advance_session_self]
    unfold Session.execute
    rw [shape]
    rfl
  have ran : (program index).run state.committed = (.ok value, state.view index) := by
    rw [← serial.current index running, remaining, shape]
    rfl
  -- Nobody else is reading, so the others will run on the new rows.
  have idle : ∀ other, other ≠ index → ¬ state.Reading blind other := by
    intro other distinct
    by_cases late : blind index < (state.session index).executed
    · exact serial.alone index other distinct.symm ⟨running, late⟩
    · refine apart ?_ other distinct
      have starts := (serial.unread index running (by omega)).blind
      cases left : blind index - (state.session index).executed with
      | zero => omega
      | succ left =>
          rw [left, shape] at starts
          obtain ⟨rows, next, impossible, -⟩ := starts
          cases impossible
  have unread : ∀ other, ((state.advance index).session other).status = .running →
      (state.advance index).Unread blind program other := by
    intro other still
    have distinct : other ≠ index := by
      rintro rfl
      rw [ended] at still
      cases still
    have frame := advance_session_of_ne state index distinct
    rw [frame] at still
    refine (serial.unread other still ?_).frame frame
    by_contra late
    exact idle other distinct ⟨still, by omega⟩
  constructor
  case order =>
    obtain ⟨order, nodup, members, serialized⟩ := serial.order
    have fresh : index ∉ order := by
      rw [members, running]
      exact fun impossible => by cases impossible
    refine ⟨order ++ [index], ?_, fun other => ?_, ?_⟩
    · rw [← List.concat_eq_append]
      exact nodup.concat fresh
    · rw [List.mem_append, List.mem_singleton, members]
      by_cases same : other = index
      · subst same
        exact iff_of_true (.inr rfl) ended
      · rw [advance_session_of_ne state index same]
        simp [same]
    · rw [committed]
      exact serialized.snoc ran
  case current => exact fun other still => (unread other still).remaining
  case unread => exact fun other still _ => unread other still
  case alone => exact serial.alone_advance running apart

theorem Serial.abort {index : ι} (serial : Serial blind program db state)
    (running : (state.session index).status = .running) :
    Serial blind program db (state.abort index) := by
  have moves : ∀ other, ((state.abort index).session other).status = .running →
      (state.abort index).session other = state.session other := by
    intro other still
    by_cases same : other = index
    · subst same
      rw [abort_session_self] at still
      cases still
    · exact abort_session_of_ne state index same
  constructor
  case order =>
    obtain ⟨order, nodup, members, serialized⟩ := serial.order
    refine ⟨order, nodup, fun other => ?_, serialized⟩
    rw [members]
    by_cases same : other = index
    · subst same
      rw [abort_session_self, running]
      simp [Session.finish]
    · rw [abort_session_of_ne state index same]
  case current =>
    intro other still
    have same := moves other still
    unfold remaining view Session.view
    rw [same] at still ⊢
    exact serial.current other still
  case unread =>
    intro other still early
    have same := moves other still
    rw [same] at still early
    exact (serial.unread other still early).frame same
  case alone =>
    intro first second distinct reading reading'
    rw [Reading.frame (moves first reading.1)] at reading
    rw [Reading.frame (moves second reading'.1)] at reading'
    exact serial.alone first second distinct reading reading'

/-- Transactions that read apart leave what they leave one after the other, in
the order of their commits. -/
theorem serial_of_reaches (starts : ∀ index, (program index).Blind (blind index))
    (reaches : ReflTransGen (GuardedStep (ReadsApart blind)) (start db program) state) :
    ∃ order : List ι, order.Nodup ∧
      (∀ index, index ∈ order ↔ (state.session index).status = .committed) ∧
      RunsSerially program db order state.committed := by
  have serial : Serial blind program db state := by
    induction reaches with
    | refl => exact start_serial starts
    | @tail state next reaches step ih =>
        obtain ⟨moved, ⟨enabled, apart, rfl⟩ | ⟨running, rfl⟩⟩ := step
        · cases commits : (state.session moved).commits with
          | false => exact ih.advance_of_not_commits enabled.1 apart commits
          | true => exact ih.advance_of_commits enabled.1 apart commits
        · exact ih.abort running
  exact serial.order

end State

end Transaction
