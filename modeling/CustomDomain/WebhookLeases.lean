import CustomDomain.EventHistory
import CustomDomain.WebhookAttempts
import Mathlib.Data.Fintype.Basic

/-!
# The lease protocol of webhook deliveries

Without replays and crashes, and with every attempt over before its lease is, a
delivery goes through one attempt at a time.  `Orderly` follows it: at rest,
leased, on its way, or answered, each with what its trail says by then.
-/

namespace CustomDomain.Webhooks

open EventHistory

/-! ## Trails -/

/-- The delay after the given number of failed requests. -/
def backoffAfter (failures : Nat) : Time :=
  backoff.getD (min failures backoff.length - 1) 0

theorem backoffAfter_nonneg (failures : Nat) : 0 ≤ backoffAfter failures := by
  unfold backoffAfter
  generalize min failures backoff.length - 1 = index
  rcases index with _ | _ | _ | _ | _ | _ | index <;>
    simp [backoff, minutes, hours, seconds]

def Happening.isSent : Happening → Bool
  | .sent _ _ => true
  | _ => false

def Happening.isFailure : Happening → Bool
  | .answered _ _ false => true
  | _ => false

/-- After a 2xx answer or an abandonment nothing may be sent. -/
def Happening.ends : Happening → Bool
  | .answered _ _ true => true
  | .settled _ .abandoned => true
  | .dropped => true
  | _ => false

def sends (trail : List Happening) : Nat := trail.countP (·.isSent)

def failures (trail : List Happening) : Nat := trail.countP (·.isFailure)

/-- Every failed request has been waited for by the given time. -/
def Bounded (trail : List Happening) (time : Time) : Prop :=
  ∀ before ticket start after, trail = before ++ .answered ticket start false :: after →
    start + backoffAfter (failures before + 1) ≤ time

/-- What is promised of a delivery's trail. -/
structure Fair (trail : List Happening) : Prop where
  few : sends trail ≤ maxAttempts
  quiet : ∀ before happening after, trail = before ++ happening :: after →
    happening.ends = true → ∀ start at_, .sent start at_ ∉ after
  spaced : ∀ before ticket start after,
    trail = before ++ .answered ticket start false :: after →
    ∀ start' at_, .sent start' at_ ∈ after →
      start + backoffAfter (failures before + 1) ≤ start' ∧ start' ≤ at_

@[simp] theorem sends_concat (trail : List Happening) (happening : Happening) :
    sends (trail ++ [happening]) = sends trail + if happening.isSent then 1 else 0 := by
  simp [sends, List.countP_append, List.countP_singleton]

@[simp] theorem failures_concat (trail : List Happening) (happening : Happening) :
    failures (trail ++ [happening]) = failures trail + if happening.isFailure then 1 else 0 := by
  simp [failures, List.countP_append, List.countP_singleton]

theorem Bounded.mono {trail : List Happening} {first second : Time} (bounded : Bounded trail first)
    (later : first ≤ second) : Bounded trail second :=
  fun before ticket start after same => (bounded before ticket start after same).trans later

theorem Bounded.concat {trail : List Happening} {time : Time} {happening : Happening}
    (bounded : Bounded trail time) (answered : happening.isFailure = false) :
    Bounded (trail ++ [happening]) time := by
  intro before ticket start after same
  rcases split_concat.mp same with ⟨rest, rfl, earlier⟩ | ⟨rfl, rfl, rfl⟩
  · exact bounded before ticket start rest earlier
  · simp [Happening.isFailure] at answered

theorem Bounded.failed {trail : List Happening} {start : Time} (bounded : Bounded trail start)
    (ticket : Nat) :
    Bounded (trail ++ [.answered ticket start false])
      (start + backoffAfter (failures trail + 1)) := by
  have waits := backoffAfter_nonneg (failures trail + 1)
  intro before ticket' start' after same
  rcases split_concat.mp same with ⟨rest, rfl, earlier⟩ | ⟨rfl, this, rfl⟩
  · have waited := bounded before ticket' start' rest earlier
    exact waited.trans (le_add_of_nonneg_right waits)
  · cases this
    exact le_rfl

theorem Fair.concat {trail : List Happening} {happening : Happening} (fair : Fair trail)
    (silent : happening.isSent = false) : Fair (trail ++ [happening]) where
  few := by simpa [silent] using fair.few
  quiet := by
    intro before ended after same ends start at_ member
    rcases split_concat.mp same with ⟨rest, rfl, earlier⟩ | ⟨rfl, -, -⟩
    · rw [List.mem_append, List.mem_singleton] at member
      rcases member with member | rfl
      · exact fair.quiet before ended rest earlier ends start at_ member
      · simp [Happening.isSent] at silent
    · simp at member
  spaced := by
    intro before ticket start after same start' at_ member
    rcases split_concat.mp same with ⟨rest, rfl, earlier⟩ | ⟨rfl, -, -⟩
    · rw [List.mem_append, List.mem_singleton] at member
      rcases member with member | rfl
      · exact fair.spaced before ticket start rest earlier start' at_ member
      · simp [Happening.isSent] at silent
    · simp at member

theorem Fair.send {trail : List Happening} {start at_ : Time} (fair : Fair trail)
    (few : sends trail < maxAttempts) (going : ∀ happening ∈ trail, happening.ends = false)
    (bounded : Bounded trail start) (past : start ≤ at_) : Fair (trail ++ [.sent start at_]) where
  few := by
    simp only [sends_concat, Happening.isSent, if_true]
    omega
  quiet := by
    intro before ended after same ends start' at_' member
    rcases split_concat.mp same with ⟨rest, rfl, rfl⟩ | ⟨rfl, -, -⟩
    · have ongoing := going ended (by simp)
      rw [ends] at ongoing
      cases ongoing
    · simp at member
  spaced := by
    intro before ticket start' after same start'' at_' member
    rcases split_concat.mp same with ⟨rest, rfl, earlier⟩ | ⟨rfl, -, -⟩
    · rw [List.mem_append, List.mem_singleton] at member
      rcases member with member | added
      · exact fair.spaced before ticket start' rest earlier start'' at_' member
      · cases added
        exact ⟨bounded before ticket start' rest earlier, past⟩
    · simp at member

/-! ## One attempt at a time -/

section Orderly

variable {ι : Type} [DecidableEq ι]

/-- A trail of failed requests and nothing more. -/
structure Steady (trail : List Happening) (attempts : Nat) : Prop where
  fair : Fair trail
  sends : sends trail = attempts
  failures : failures trail = attempts
  going : ∀ happening ∈ trail, happening.ends = false
  below : attempts < maxAttempts

/-- The delivery is not settled, and held until the time given. -/
structure Open (row : WebhookDelivery) (attempts : Nat) (until_ : Time) : Prop where
  attempts : row.attempts = attempts
  deliveredAt : row.deliveredAt = none
  abandonedAt : row.abandonedAt = none
  nextAttemptAt : row.nextAttemptAt = some until_

/-- No worker but the given one has a hand on the delivery. -/
def Alone (track : Track ι) (worker : ι) : Prop :=
  ∀ other, other ≠ worker → track.phase other = .idle

/-- Where a delivery can be.  A row that is removed while it is leased leaves
the attempt behind. -/
inductive Orderly (track : Track ι) : Prop where
  | gone (absent : track.row = none) (fair : Fair track.trail)
      (single : ∀ first second, track.phase first ≠ .idle → track.phase second ≠ .idle →
        first = second)
  | settled {row : WebhookDelivery} (stored : track.row = some row)
      (still : ∀ worker, track.phase worker = .idle) (fair : Fair track.trail)
      (counted : row.attempts = sends track.trail)
      (ended : row.deliveredAt ≠ none ∨ row.abandonedAt ≠ none)
      (reason : row.abandonedAt ≠ none →
        failures track.trail = maxAttempts ∨ .dropped ∈ track.trail)
  | resting {row : WebhookDelivery} (stored : track.row = some row)
      (still : ∀ worker, track.phase worker = .idle)
      (steady : Steady track.trail row.attempts) (undelivered : row.deliveredAt = none)
      (kept : row.abandonedAt = none)
      (bounded : ∀ next ∈ row.nextAttemptAt, Bounded track.trail next)
  | leased {row : WebhookDelivery} {worker : ι} {id : DeliveryId} {now : Time}
      (stored : track.row = some row) (held : track.phase worker = .leased id now)
      (alone : Alone track worker) (past : now ≤ track.clock)
      (steady : Steady track.trail row.attempts) (bounded : Bounded track.trail now)
      (open_ : Open row row.attempts (now + lease))
  | sending {row : WebhookDelivery} {worker : ι} {ticket : Nat} {copy : WebhookDelivery}
      {now at_ : Time} {before : List Happening} (stored : track.row = some row)
      (held : track.phase worker = .sending ticket copy now) (alone : Alone track worker)
      (trail : track.trail = before ++ [.sent now at_]) (past : now ≤ at_)
      (steady : Steady before copy.attempts) (bounded : Bounded before now)
      (open_ : Open row copy.attempts (now + lease)) (loaded : Open copy copy.attempts (now + lease))
  | answered {row : WebhookDelivery} {worker : ι} {ticket : Nat} {copy : WebhookDelivery}
      {now at_ : Time} {answer : Answer} {before : List Happening} (stored : track.row = some row)
      (held : track.phase worker = .answered ticket copy now answer) (alone : Alone track worker)
      (trail : track.trail =
        before ++ [.sent now at_] ++ [.answered ticket now answer.error.isNone])
      (past : now ≤ at_) (steady : Steady before copy.attempts) (bounded : Bounded before now)
      (open_ : Open row copy.attempts (now + lease)) (loaded : Open copy copy.attempts (now + lease))

theorem Steady.send {trail : List Happening} {attempts : Nat} (steady : Steady trail attempts)
    {start at_ : Time} (bounded : Bounded trail start) (past : start ≤ at_) :
    Fair (trail ++ [.sent start at_]) :=
  steady.fair.send (steady.sends.symm ▸ steady.below) steady.going bounded past

namespace Orderly

variable {track after : Track ι}

omit [DecidableEq ι] in
theorem fair (orderly : Orderly track) : Fair track.trail := by
  cases orderly with
  | gone absent fair => exact fair
  | settled stored still fair => exact fair
  | resting stored still steady => exact steady.fair
  | leased stored held alone past steady => exact steady.fair
  | sending stored held alone trail past steady bounded =>
      rw [trail]
      exact steady.send bounded past
  | answered stored held alone trail past steady bounded =>
      rw [trail]
      exact (steady.send bounded past).concat rfl

omit [DecidableEq ι] in
theorem single (orderly : Orderly track) (first second : ι) (left : track.phase first ≠ .idle)
    (right : track.phase second ≠ .idle) : first = second := by
  have alone : ∀ worker, Alone track worker → first = second := by
    intro worker alone
    have isFirst := not_imp_comm.mp (alone first) left
    have isSecond := not_imp_comm.mp (alone second) right
    exact isFirst.trans isSecond.symm
  cases orderly with
  | gone absent fair single => exact single first second left right
  | settled stored still => exact absurd (still first) left
  | resting stored still => exact absurd (still first) left
  | leased stored held only => exact alone _ only
  | sending stored held only => exact alone _ only
  | answered stored held only => exact alone _ only

/-- Attempts are over before their leases are. -/
def InTime (track : Track ι) : Prop :=
  ∀ worker start, (track.phase worker).start? = some start → track.clock < start + lease

/-- A leased delivery is not due. -/
theorem not_due {row : WebhookDelivery} {attempts : Nat} {start now clock : Time}
    (open_ : Open row attempts (start + lease)) (intime : clock < start + lease)
    (past : now ≤ clock) : due row now = false := by
  have early : ¬ start + lease ≤ now := not_le.mpr (lt_of_le_of_lt past intime)
  simp [due, open_.nextAttemptAt, early]

theorem alone_put {worker : ι} (alone : Alone track worker) (phase : Phase) :
    ∀ other, other ≠ worker → (track.put worker phase).phase other = .idle := by
  intro other different
  simpa [Track.put, different] using alone other different

theorem still_put {worker : ι} (alone : Alone track worker) :
    ∀ other, (track.put worker .idle).phase other = .idle := by
  intro other
  by_cases same : other = worker
  · simp [Track.put, same]
  · exact alone_put alone .idle other same

omit [DecidableEq ι] in
/-- A worker with a hand on the delivery is the only one. -/
theorem only {worker other : ι} (alone : Alone track worker)
    (held : track.phase other ≠ .idle) : other = worker :=
  not_imp_comm.mp (alone other) held

omit [DecidableEq ι] in
theorem afterWait {at_ : Time} (orderly : Orderly track) (later : track.clock ≤ at_) :
    Orderly { track with clock := at_ } := by
  cases orderly with
  | gone absent fair single => exact .gone absent fair single
  | settled stored still fair counted ended reason =>
      exact .settled stored still fair counted ended reason
  | resting stored still steady undelivered kept bounded =>
      exact .resting stored still steady undelivered kept bounded
  | leased stored held alone past steady bounded open_ =>
      exact .leased stored held alone (past.trans later) steady bounded open_
  | sending stored held alone trail past steady bounded open_ loaded =>
      exact .sending stored held alone trail past steady bounded open_ loaded
  | answered stored held alone trail past steady bounded open_ loaded =>
      exact .answered stored held alone trail past steady bounded open_ loaded

omit [DecidableEq ι] in
/-- What replays have loaded does not matter before they commit. -/
theorem ofCopies (orderly : Orderly track) (copies : ι → Option WebhookDelivery) :
    Orderly { track with copies := copies } := by
  cases orderly with
  | gone absent fair single => exact .gone absent fair single
  | settled stored still fair counted ended reason =>
      exact .settled stored still fair counted ended reason
  | resting stored still steady undelivered kept bounded =>
      exact .resting stored still steady undelivered kept bounded
  | leased stored held alone past steady bounded open_ =>
      exact .leased stored held alone past steady bounded open_
  | sending stored held alone trail past steady bounded open_ loaded =>
      exact .sending stored held alone trail past steady bounded open_ loaded
  | answered stored held alone trail past steady bounded open_ loaded =>
      exact .answered stored held alone trail past steady bounded open_ loaded

theorem fair_nil : Fair [] where
  few := Nat.zero_le _
  quiet := by simp
  spaced := by simp

omit [DecidableEq ι] in
theorem afterCreate (track : Track ι) {row : WebhookDelivery} (unheard : track.trail = [])
    (still : ∀ worker, track.phase worker = .idle) (fresh : row.Fresh) :
    Orderly { track with row := some row } := by
  have steady : Steady track.trail row.attempts := by
    rw [unheard, fresh.attempts]
    exact ⟨fair_nil, rfl, rfl, by simp, by decide⟩
  refine .resting rfl still steady fresh.deliveredAt fresh.abandonedAt ?_
  intro next _ before ticket start after same
  simp [unheard] at same

theorem afterLease {worker : ι} {id : DeliveryId} {now : Time} {row : WebhookDelivery}
    (orderly : Orderly track) (stored : track.row = some row) (dueNow : due row now = true)
    (past : now ≤ track.clock) (still : track.phase worker = .idle)
    (intime : InTime { track.put worker (.leased id now) with
      row := some (Webhooks.leased row now) }) :
    Orderly { track.put worker (.leased id now) with row := some (Webhooks.leased row now) } := by
  -- An attempt that is under way would still be under way after the lease.
  have busy : ∀ other start attempts, (track.phase other).start? = some start →
      Open row attempts (start + Webhooks.lease) → False := by
    intro other start attempts started open_
    have different : other ≠ worker := by
      rintro rfl
      rw [still] at started
      cases started
    have early := intime other start (by simpa [Track.put, different] using started)
    rw [not_due open_ early past] at dueNow
    cases dueNow
  cases orderly with
  | gone absent => cases absent.symm.trans stored
  | settled stored' still' fair counted ended =>
      cases stored'.symm.trans stored
      simp only [due, Bool.and_eq_true, Option.isNone_iff_eq_none] at dueNow
      rcases ended with ended | ended
      · exact absurd dueNow.1.1 ended
      · exact absurd dueNow.1.2 ended
  | resting stored' idle steady undelivered kept bounded =>
      cases stored'.symm.trans stored
      have steady' : Steady track.trail (Webhooks.leased row now).attempts := steady
      refine .leased rfl (Function.update_self ..) ?_ past steady' ?_
        ⟨rfl, undelivered, kept, rfl⟩
      · exact alone_put (fun other _ => idle other) _
      · simp only [due, Bool.and_eq_true, Option.any_eq_true, decide_eq_true_eq] at dueNow
        obtain ⟨-, next, known, reached⟩ := dueNow
        exact (bounded next known).mono reached
  | leased stored' held alone past' steady bounded open_ =>
      cases stored'.symm.trans stored
      exact (busy _ _ _ (by rw [held]; rfl) open_).elim
  | sending stored' held alone trail past' steady bounded open_ =>
      cases stored'.symm.trans stored
      exact (busy _ _ _ (by rw [held]; rfl) open_).elim
  | answered stored' held alone trail past' steady bounded open_ =>
      cases stored'.symm.trans stored
      exact (busy _ _ _ (by rw [held]; rfl) open_).elim

omit [DecidableEq ι] in
/-- The attempt that holds the lease. -/
theorem of_leased {worker : ι} {id : DeliveryId} {now : Time} {row : WebhookDelivery}
    (orderly : Orderly track) (held : track.phase worker = .leased id now)
    (stored : track.row = some row) :
    Alone track worker ∧ now ≤ track.clock ∧ Steady track.trail row.attempts ∧
      Bounded track.trail now ∧ Open row row.attempts (now + Webhooks.lease) := by
  have busy : track.phase worker ≠ .idle := by rw [held]; exact Phase.noConfusion
  cases orderly with
  | gone absent => cases absent.symm.trans stored
  | settled stored' still => exact absurd (still worker) busy
  | resting stored' still => exact absurd (still worker) busy
  | leased stored' held' alone past steady bounded open_ =>
      cases stored'.symm.trans stored
      cases only alone busy
      cases held'.symm.trans held
      exact ⟨alone, past, steady, bounded, open_⟩
  | sending stored' held' alone =>
      cases only alone busy
      cases held'.symm.trans held
  | answered stored' held' alone =>
      cases only alone busy
      cases held'.symm.trans held

theorem afterLoad {worker : ι} {id : DeliveryId} {now : Time} {row : WebhookDelivery}
    (orderly : Orderly track) (held : track.phase worker = .leased id now)
    (stored : track.row = some row) :
    Orderly { track.put worker (.sending track.trail.length row now) with
      trail := track.trail ++ [.sent now track.clock] } := by
  obtain ⟨alone, past, steady, bounded, open_⟩ := orderly.of_leased held stored
  refine .sending stored (Function.update_self ..) (alone_put alone _) rfl past steady bounded
    ?_ ?_
  · exact open_
  · exact open_

theorem afterDrop {worker : ι} {id : DeliveryId} {now : Time} {row : WebhookDelivery}
    (orderly : Orderly track) (held : track.phase worker = .leased id now)
    (stored : track.row = some row) :
    Orderly { track.put worker .idle with
      row := some (dropped row now), trail := track.trail ++ [.dropped] } := by
  obtain ⟨alone, past, steady, bounded, open_⟩ := orderly.of_leased held stored
  refine .settled rfl (still_put alone) (steady.fair.concat rfl) ?_ ?_ ?_
  · simp [dropped, steady.sends, Happening.isSent]
  · exact .inr (by simp [dropped])
  · intro _
    exact .inr (by simp)

theorem afterAnswer {worker : ι} {ticket : Nat} {copy : WebhookDelivery} {now : Time}
    {answer : Answer} (orderly : Orderly track)
    (held : track.phase worker = .sending ticket copy now) :
    Orderly { track.put worker (.answered ticket copy now answer) with
      trail := track.trail ++ [.answered ticket now answer.error.isNone] } := by
  have busy : track.phase worker ≠ .idle := by rw [held]; exact Phase.noConfusion
  cases orderly with
  | gone absent fair single =>
      refine .gone absent (fair.concat rfl) ?_
      have alone : Alone track worker := by
        intro other different
        by_contra active
        exact different (single other worker active busy)
      intro first second left right
      have isFirst := not_imp_comm.mp (alone_put alone _ first) left
      have isSecond := not_imp_comm.mp (alone_put alone _ second) right
      exact isFirst.trans isSecond.symm
  | settled stored still => exact absurd (still worker) busy
  | resting stored still => exact absurd (still worker) busy
  | leased stored held' alone =>
      cases only alone busy
      cases held'.symm.trans held
  | sending stored held' alone trail past steady bounded open_ loaded =>
      cases only alone busy
      cases held'.symm.trans held
      refine .answered stored (Function.update_self ..) (alone_put alone _) ?_ past steady bounded
        open_ loaded
      exact congrArg (· ++ _) trail
  | answered stored held' alone =>
      cases only alone busy
      cases held'.symm.trans held

/-- The stored row is the loaded one where it matters, so the final update
writes what the attempt decided. -/
theorem patch_open {row copy : WebhookDelivery} {attempts : Nat} {until_ : Time}
    (open_ : Open row attempts until_) (loaded : Open copy attempts until_)
    (written : WebhookDelivery) :
    (copy.patch written row).attempts = written.attempts ∧
      (copy.patch written row).deliveredAt = written.deliveredAt ∧
      (copy.patch written row).abandonedAt = written.abandonedAt ∧
      (copy.patch written row).nextAttemptAt = written.nextAttemptAt := by
  refine ⟨?_, ?_, ?_, ?_⟩
  · simp only [WebhookDelivery.patch, open_.attempts, loaded.attempts, column_loaded]
  · simp only [WebhookDelivery.patch, open_.deliveredAt, loaded.deliveredAt, column_loaded]
  · simp only [WebhookDelivery.patch, open_.abandonedAt, loaded.abandonedAt, column_loaded]
  · simp only [WebhookDelivery.patch, open_.nextAttemptAt, loaded.nextAttemptAt, column_loaded]

theorem afterSettle {worker : ι} {ticket : Nat} {copy : WebhookDelivery} {now : Time}
    {answer : Answer} {row : WebhookDelivery} (orderly : Orderly track)
    (held : track.phase worker = .answered ticket copy now answer)
    (stored : track.row = some row) :
    Orderly { track.put worker .idle with
      row := some (copy.patch (Webhooks.settled copy answer now).1 row)
      trail := track.trail ++ [.settled ticket (Webhooks.settled copy answer now).2] } := by
  have busy : track.phase worker ≠ .idle := by rw [held]; exact Phase.noConfusion
  cases orderly with
  | gone absent => cases absent.symm.trans stored
  | settled stored' still => exact absurd (still worker) busy
  | resting stored' still => exact absurd (still worker) busy
  | leased stored' held' alone =>
      cases only alone busy
      cases held'.symm.trans held
  | sending stored' held' alone =>
      cases only alone busy
      cases held'.symm.trans held
  | @answered _ _ _ _ _ at_ _ before stored' held' alone trail past steady bounded open_ loaded =>
      cases stored'.symm.trans stored
      cases only alone busy
      cases held'.symm.trans held
      obtain ⟨attempts, deliveredAt, abandonedAt, nextAttemptAt⟩ :=
        patch_open open_ loaded (Webhooks.settled copy answer now).1
      rw [settled_attempts] at attempts
      rw [settled_deliveredAt, loaded.deliveredAt] at deliveredAt
      rw [settled_abandonedAt, loaded.abandonedAt] at abandonedAt
      rw [settled_nextAttemptAt] at nextAttemptAt
      have fair : Fair (track.trail ++ [.settled ticket (Webhooks.settled copy answer now).2]) := by
        rw [trail]
        exact ((steady.send bounded past).concat rfl).concat rfl
      have sent : sends (track.trail ++ [.settled ticket (Webhooks.settled copy answer now).2]) =
          copy.attempts + 1 := by
        simp only [trail, sends_concat, steady.sends, Happening.isSent, if_true,
          Bool.false_eq_true, if_false, add_zero]
      have still := still_put alone
      by_cases accepted : answer.error = none
      · rw [if_pos accepted] at deliveredAt
        rw [if_neg (by simp [accepted])] at abandonedAt
        refine .settled rfl still fair (attempts.trans sent.symm) (.inl (by simp [deliveredAt])) ?_
        intro given_up
        exact absurd abandonedAt given_up
      · have refused : answer.error.isNone = false := by
          simpa [Option.isSome_iff_ne_none] using accepted
        have failed : failures (track.trail ++
            [.settled ticket (Webhooks.settled copy answer now).2]) = copy.attempts + 1 := by
          simp only [trail, refused, failures_concat, steady.failures, Happening.isFailure, if_true,
            Bool.false_eq_true, if_false, add_zero]
        by_cases last : maxAttempts ≤ copy.attempts + 1
        · rw [if_pos ⟨accepted, last⟩] at abandonedAt
          refine .settled rfl still fair (attempts.trans sent.symm)
            (.inr (by simp [abandonedAt])) ?_
          intro _
          exact .inl (failed.trans (le_antisymm steady.below last))
        · rw [if_neg accepted] at deliveredAt
          rw [if_neg fun both => last both.2] at abandonedAt
          rw [if_neg fun either => either.elim accepted last] at nextAttemptAt
          have outcome : (Webhooks.settled copy answer now).2 = .retry := by
            rw [settled_outcome, if_neg accepted, if_neg last]
          rw [outcome] at fair sent failed ⊢
          refine .resting rfl still ?_ deliveredAt abandonedAt ?_
          · dsimp only
            rw [attempts]
            refine ⟨fair, sent, failed, ?_, lt_of_not_ge last⟩
            simp only [trail, refused, List.append_assoc, List.mem_append, List.mem_cons,
              List.not_mem_nil, or_false]
            rintro happening (old | rfl | rfl | rfl)
            · exact steady.going happening old
            · rfl
            · rfl
            · rfl
          · intro next known
            rw [nextAttemptAt] at known
            cases known
            have sentBounded : Bounded (before ++ [.sent now at_]) now := bounded.concat rfl
            have counted : failures (before ++ [.sent now at_]) = copy.attempts := by
              simp [steady.failures, Happening.isFailure]
            have waited := sentBounded.failed ticket
            rw [counted, ← refused] at waited
            dsimp only
            rw [trail]
            exact waited.concat rfl

theorem step {move : Move ι} (orderly : Orderly track) (step : track.Step move after)
    (replayed : ∀ request, move ≠ .replay request) (crashed : ∀ worker, move ≠ .crash worker)
    (intime : InTime after) : Orderly after := by
  cases step with
  | wait later => exact orderly.afterWait later
  | create absent unheard still unselected fresh => exact afterCreate track unheard still fresh
  | remove => exact .gone rfl orderly.fair orderly.single
  | lease stored dueNow past still => exact orderly.afterLease stored dueNow past still intime
  | load held stored => exact orderly.afterLoad held stored
  | drop held stored => exact orderly.afterDrop held stored
  | answer held => exact orderly.afterAnswer held
  | settle held stored => exact orderly.afterSettle held stored
  | crash => exact absurd rfl (crashed _)
  | select | release => exact orderly.ofCopies _
  | replay => exact absurd rfl (replayed _)

end Orderly

end Orderly

/-! ## Runs without replays and crashes -/

section Runs

variable {ι : Type} [DecidableEq ι]

/-- A replay writes its rows. -/
def Action.isReplay : Action ι → Bool
  | .requeue _ _ => true
  | _ => false

def Action.isCrash : Action ι → Bool
  | .crash _ => true
  | _ => false

/-- No replay, no crash, and every attempt that holds a lease is over before the
lease is. -/
def Undisturbed (_state : State ι) (action : Action ι) (after : State ι) : Prop :=
  action.isReplay = false ∧ action.isCrash = false ∧
    ∀ worker, ∀ start ∈ (after.workers worker).start?, after.clock < start + lease

instance [Fintype ι] (state : State ι) (action : Action ι) (after : State ι) :
    Decidable (Undisturbed state action after) :=
  inferInstanceAs (Decidable (_ ∧ _ ∧ _))

/-- Every delivery is new and no attempt is under way. -/
structure State.Fresh (state : State ι) : Prop where
  sound : state.Sound
  rows : ∀ delivery ∈ state.db.deliveries, delivery.Fresh
  trail : ∀ id, state.trail id = []
  still : ∀ worker, (state.workers worker).delivery? = none

omit [DecidableEq ι] in
theorem State.Fresh.orderly {state : State ι} (fresh : state.Fresh) (id : DeliveryId) :
    Orderly (state.track id) := by
  have still : ∀ worker, (state.track id).phase worker = .idle := by
    intro worker
    exact Phase.on_other (by simp [fresh.still worker])
  cases stored : state.db.delivery? id with
  | none =>
      refine .gone stored ?_ fun first _ busy => absurd (still first) busy
      have unheard : (state.track id).trail = [] := fresh.trail id
      rw [unheard]
      exact Orderly.fair_nil
  | some row =>
      have created := Orderly.afterCreate (state.track id) (fresh.trail id) still
        (fresh.rows row (Database.delivery?_id stored).2)
      have same : { state.track id with row := some row } = state.track id := by
        rw [← stored]
        rfl
      rwa [same] at created

theorem orderly_of_reaches {start state : State ι} (fresh : start.Fresh)
    (reaches : Reaches Undisturbed start state) (id : DeliveryId) :
    Orderly (state.track id) := by
  refine reaches.track fresh.sound (fresh.orderly id) ?_
  intro state after action move sound met origin step orderly
  obtain ⟨noReplay, noCrash, intime⟩ := met
  apply orderly.step step
  · rintro request rfl
    obtain ⟨now, rfl⟩ := (show ∃ now, action = .requeue request now from origin)
    cases noReplay
  · rintro worker rfl
    cases (show action = .crash worker from origin)
    cases noCrash
  · intro worker begun started
    apply intime worker begun
    have shown : ((after.workers worker).on id).start? = some begun := started
    unfold Phase.on at shown
    split at shown
    · exact shown
    · cases shown

/-- The worker's request for the delivery is in flight. -/
def Phase.requests (id : DeliveryId) : Phase → Bool
  | .sending _ copy _ => copy.id = id
  | _ => false

/-- One attempt at a time, in every run without replays and crashes whose
attempts finish within their leases: requests of one delivery do not overlap;
there are at most `MAX_ATTEMPTS` of them; none follows a 2xx answer or an
abandonment; between attempts the counter is their number; the one after the
k-th failure keeps the distance of the schedule; and a delivery is abandoned
after `MAX_ATTEMPTS` failures or because an attempt found its subscription
revoked. -/
theorem deliveries_attempted_orderly {start state : State ι} (fresh : start.Fresh)
    (reaches : Reaches Undisturbed start state) (id : DeliveryId) :
    (∀ first second, (state.workers first).requests id = true →
      (state.workers second).requests id = true → first = second) ∧
    sends (state.trail id) ≤ maxAttempts ∧
    (∀ before happening after, state.trail id = before ++ happening :: after →
      happening.ends = true → ∀ start at_, .sent start at_ ∉ after) ∧
    (∀ row, state.db.delivery? id = some row →
      (∀ worker, (state.workers worker).delivery? ≠ some id) →
      row.attempts = sends (state.trail id)) ∧
    (∀ before ticket start after,
      state.trail id = before ++ .answered ticket start false :: after →
      ∀ start' at_, .sent start' at_ ∈ after →
        start + backoff.getD (min (failures before + 1) backoff.length - 1) 0 ≤ start' ∧
          start' ≤ at_) ∧
    (∀ row, state.db.delivery? id = some row → row.abandonedAt ≠ none →
      failures (state.trail id) = maxAttempts ∨ .dropped ∈ state.trail id) := by
  have orderly := orderly_of_reaches fresh reaches id
  have fair : Fair (state.trail id) := orderly.fair
  refine ⟨?_, fair.few, fair.quiet, ?_, fair.spaced, ?_⟩
  · intro first second left right
    have busy : ∀ worker, (state.workers worker).requests id = true →
        (state.track id).phase worker ≠ .idle := by
      intro worker requests idle
      cases phase : state.workers worker with
      | sending ticket copy now =>
          simp only [phase, Phase.requests, decide_eq_true_eq] at requests
          simp [State.track, Phase.on, phase, Phase.delivery?, requests] at idle
      | _ => simp [phase, Phase.requests] at requests
    exact orderly.single first second (busy first left) (busy second right)
  · intro row stored free
    have idle : ∀ worker, (state.track id).phase worker = .idle := by
      intro worker
      exact State.track_idle (free worker)
    cases orderly with
    | gone absent => cases absent.symm.trans stored
    | settled stored' still fair counted =>
        cases stored'.symm.trans stored
        exact counted
    | resting stored' still steady =>
        cases stored'.symm.trans stored
        exact steady.sends.symm
    | leased stored' held => cases (idle _).symm.trans held
    | sending stored' held => cases (idle _).symm.trans held
    | answered stored' held => cases (idle _).symm.trans held
  · intro row stored given_up
    cases orderly with
    | gone absent => cases absent.symm.trans stored
    | settled stored' still fair counted ended reason =>
        cases stored'.symm.trans stored
        exact reason given_up
    | resting stored' still steady undelivered kept =>
        cases stored'.symm.trans stored
        exact absurd kept given_up
    | leased stored' held alone past steady bounded open_ =>
        cases stored'.symm.trans stored
        exact absurd open_.abandonedAt given_up
    | sending stored' held alone trail past steady bounded open_ =>
        cases stored'.symm.trans stored
        exact absurd open_.abandonedAt given_up
    | answered stored' held alone trail past steady bounded open_ =>
        cases stored'.symm.trans stored
        exact absurd open_.abandonedAt given_up

end Runs

/-- A first request that fails, and the second one when it is due. -/
def retriedActions : List (Action Bool) :=
  [.begin true sampleDelivery.id, .lease true, .load true, .tick (seconds 5),
    .answer true (.status 503 "busy"), .record true, .tick (minutes 1),
    .begin false sampleDelivery.id, .lease false, .load false]

theorem deliveries_attempted_orderly_retried :
    ∃ state, (sampleState 0).follow Undisturbed retriedActions = some state ∧
      sends (state.trail sampleDelivery.id) = 2 ∧ failures (state.trail sampleDelivery.id) = 1 ∧
      sends (state.trail sampleDelivery.id) ≤ maxAttempts := by
  have fresh : (sampleState 0).Fresh :=
    { sound := sampleState_sound 0
      rows := by
        intro delivery member
        rw [List.mem_singleton.mp member]
        exact ⟨rfl, rfl, rfl⟩
      trail := fun _ => rfl
      still := fun _ => rfl }
  have ran : ((sampleState 0).follow Undisturbed retriedActions).isSome = true := by
    decide +kernel
  obtain ⟨state, followed⟩ := Option.isSome_iff_exists.mp ran
  have counts : ((sampleState 0).follow Undisturbed retriedActions).map (fun state =>
      (sends (state.trail sampleDelivery.id), failures (state.trail sampleDelivery.id))) =
      some (2, 1) := by decide +kernel
  rw [followed, Option.map_some, Option.some.injEq, Prod.mk.injEq] at counts
  have reaches := Reaches.of_follow .start followed
  have orderly := deliveries_attempted_orderly fresh reaches sampleDelivery.id
  exact ⟨state, followed, counts.1, counts.2, orderly.2.1⟩

end CustomDomain.Webhooks
