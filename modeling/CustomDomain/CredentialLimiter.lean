import CustomDomain.DoubleRounding
import CustomDomain.PrunedWindows

/-!
# Requests per minute of a credential

`CredentialRateLimiter` of `app/v1/throttle.py`: at most `per_minute` requests of a credential in
any window, counted from the stamps of the requests that went ahead.
-/

namespace CustomDomain

open SlidingWindow DoubleRounding

structure CredentialRateLimiter where
  perMinute : Int := 0
  window : ℚ := 60
  seen : String → List ℚ := fun _ => []

namespace CredentialRateLimiter

def enabled (limiter : CredentialRateLimiter) : Bool := 0 < limiter.perMinute

/-- `self._seen[credential_id] = stamps`. -/
def keep (limiter : CredentialRateLimiter) (credentialId : String) (stamps : List ℚ) :
    CredentialRateLimiter :=
  { limiter with
    seen := fun other => if other = credentialId then stamps else limiter.seen other }

/-- `take`: the seconds to wait, or 0, and the limiter afterwards. -/
def take (limiter : CredentialRateLimiter) (credentialId : String) (now : ℚ) :
    Int × CredentialRateLimiter :=
  if limiter.enabled then
    let stamps := recent limiter.window now (limiter.seen credentialId)
    if limiter.perMinute ≤ stamps.length then
      -- the budget is positive, so there is a first stamp
      (truncate (stamps.headD 0 + limiter.window - now) + 1, limiter.keep credentialId stamps)
    else (0, limiter.keep credentialId (stamps ++ [now]))
  else (0, limiter)

end CredentialRateLimiter

/-- One call of `take`. -/
structure TakeCall where
  credentialId : String
  now : ℚ
  deriving DecidableEq

namespace CredentialRateLimiter

/-- The answers of a run of calls. -/
def answers : CredentialRateLimiter → List TakeCall → List Int
  | _, [] => []
  | limiter, call :: rest =>
      let (answer, after) := limiter.take call.credentialId call.now
      answer :: answers after rest

/-- The limiter after a run of calls. -/
def after (limiter : CredentialRateLimiter) (calls : List TakeCall) : CredentialRateLimiter :=
  calls.foldl (fun limiter call => (limiter.take call.credentialId call.now).2) limiter

/-- The stamps of the admitted requests of a credential. -/
def admitted : CredentialRateLimiter → List TakeCall → String → List ℚ
  | _, [], _ => []
  | limiter, call :: rest, credentialId =>
      let (answer, after) := limiter.take call.credentialId call.now
      if call.credentialId = credentialId ∧ answer = 0 then
        call.now :: admitted after rest credentialId
      else admitted after rest credentialId

variable {limiter : CredentialRateLimiter}

theorem after_append (calls : List TakeCall) (call : TakeCall) :
    limiter.after (calls ++ [call]) =
      ((limiter.after calls).take call.credentialId call.now).2 := by
  rw [after, List.foldl_append]
  rfl

theorem admitted_append (calls : List TakeCall) (call : TakeCall) (credentialId : String) :
    limiter.admitted (calls ++ [call]) credentialId =
      limiter.admitted calls credentialId ++
        if call.credentialId = credentialId ∧
            ((limiter.after calls).take call.credentialId call.now).1 = 0 then [call.now]
        else [] := by
  induction calls generalizing limiter with
  | nil =>
      simp only [List.nil_append, admitted, after, List.foldl_nil]
      rfl
  | cons first rest ih =>
      simp only [List.cons_append, admitted, ih]
      split <;> rfl

theorem admitted_sublist (calls : List TakeCall) (credentialId : String) :
    (limiter.admitted calls credentialId).Sublist (calls.map TakeCall.now) := by
  induction calls generalizing limiter with
  | nil => exact List.Sublist.slnil
  | cons call rest ih =>
      simp only [admitted]
      split
      next => exact (ih).cons_cons call.now
      next => exact (ih).cons call.now

/-! ## What a call answers -/

theorem take_of_enabled (enabled : 1 ≤ limiter.perMinute) (credentialId : String) (now : ℚ) :
    limiter.take credentialId now =
      if limiter.perMinute ≤ (recent limiter.window now (limiter.seen credentialId)).length then
        (truncate ((recent limiter.window now (limiter.seen credentialId)).headD 0 +
            limiter.window - now) + 1,
          limiter.keep credentialId (recent limiter.window now (limiter.seen credentialId)))
      else
        (0, limiter.keep credentialId
          (recent limiter.window now (limiter.seen credentialId) ++ [now])) := by
  have isEnabled : limiter.enabled = true := decide_eq_true enabled
  rw [take, if_pos isEnabled]

theorem take_of_disabled (disabled : ¬1 ≤ limiter.perMinute) (credentialId : String) (now : ℚ) :
    limiter.take credentialId now = (0, limiter) := by
  have isDisabled : ¬limiter.enabled = true := fun enabled => disabled (of_decide_eq_true enabled)
  rw [take, if_neg isDisabled]

/-- The time until a stamp leaves the window, rounded up past it. -/
theorem wait_bounds {stamp window now : ℚ} (inside : now - stamp < window) :
    0 < truncate (stamp + window - now) + 1 ∧
      stamp + window - now < (truncate (stamp + window - now) + 1 : Int) ∧
      ((truncate (stamp + window - now) : Int) : ℚ) ≤ stamp + window - now := by
  have positive : 0 ≤ stamp + window - now := by linarith
  rw [truncate, if_pos positive]
  have floor := Int.floor_nonneg.mpr positive
  refine ⟨by omega, ?_, Int.floor_le _⟩
  push_cast
  exact Int.lt_floor_add_one _

/-- A full window is not empty, and its first stamp tells the answer. -/
theorem refused_of_full (enabled : 1 ≤ limiter.perMinute) {credentialId : String} {now : ℚ}
    (full : limiter.perMinute ≤ (recent limiter.window now (limiter.seen credentialId)).length) :
    ∃ first rest, recent limiter.window now (limiter.seen credentialId) = first :: rest ∧
      now - first < limiter.window ∧
      limiter.take credentialId now =
        (truncate (first + limiter.window - now) + 1,
          limiter.keep credentialId (first :: rest)) := by
  cases stamps : recent limiter.window now (limiter.seen credentialId) with
  | nil =>
      rw [stamps, List.length_nil] at full
      omega
  | cons first rest =>
      have inside : first ∈ recent limiter.window now (limiter.seen credentialId) :=
        stamps ▸ List.mem_cons_self ..
      refine ⟨first, rest, rfl, (mem_recent.mp inside).2, ?_⟩
      rw [take_of_enabled enabled, if_pos full, stamps, List.headD_cons]

theorem refused_iff (enabled : 1 ≤ limiter.perMinute) {credentialId : String} {now : ℚ} :
    (limiter.take credentialId now).1 ≠ 0 ↔
      limiter.perMinute ≤ (recent limiter.window now (limiter.seen credentialId)).length := by
  constructor
  · intro refused
    by_contra room
    rw [take_of_enabled enabled, if_neg room] at refused
    exact refused rfl
  · intro full
    obtain ⟨first, rest, -, inside, answer⟩ := refused_of_full enabled full
    rw [answer]
    have positive := (wait_bounds inside).1
    exact ne_of_gt positive

/-! ## Limiters that answer alike from some time on -/

/-- From `now` on, both limiters see the same stamps in every window. -/
structure Alike (now : ℚ) (first second : CredentialRateLimiter) : Prop where
  perMinute : first.perMinute = second.perMinute
  window : first.window = second.window
  seen : ∀ credentialId later, now ≤ later →
    recent first.window later (first.seen credentialId) =
      recent first.window later (second.seen credentialId)

section Alike

variable {now later : ℚ} {first second third : CredentialRateLimiter}

theorem Alike.trans (left : Alike now first second) (right : Alike now second third) :
    Alike now first third where
  perMinute := left.perMinute.trans right.perMinute
  window := left.window.trans right.window
  seen := by
    intro credentialId later order
    rw [left.seen credentialId later order, left.window, right.seen credentialId later order]

theorem Alike.mono (alike : Alike now first second) (order : now ≤ later) :
    Alike later first second :=
  ⟨alike.perMinute, alike.window,
    fun credentialId last after => alike.seen credentialId last (order.trans after)⟩

/-- Two limiters that see the same stamps answer the same. -/
theorem Alike.answer (alike : Alike now first second) (order : now ≤ later)
    (credentialId : String) :
    (first.take credentialId later).1 = (second.take credentialId later).1 := by
  have same := alike.seen credentialId later order
  by_cases enabled : 1 ≤ first.perMinute
  · rw [take_of_enabled enabled, take_of_enabled (alike.perMinute ▸ enabled), ← alike.perMinute,
      ← alike.window, ← same]
    split <;> rfl
  · rw [take_of_disabled enabled, take_of_disabled (alike.perMinute ▸ enabled)]

theorem keep_alike {stamps others : List ℚ} (alike : Alike now first second)
    (same : ∀ later, now ≤ later →
      recent first.window later stamps = recent first.window later others)
    (credentialId : String) :
    Alike now (first.keep credentialId stamps) (second.keep credentialId others) where
  perMinute := alike.perMinute
  window := alike.window
  seen := by
    intro other later order
    simp only [keep]
    split
    next => exact same later order
    next => exact alike.seen other later order

theorem Alike.take (alike : Alike now first second) (order : now ≤ later)
    (credentialId : String) :
    Alike later (first.take credentialId later).2 (second.take credentialId later).2 := by
  have same := alike.seen credentialId later order
  by_cases enabled : 1 ≤ first.perMinute
  · rw [take_of_enabled enabled, take_of_enabled (alike.perMinute ▸ enabled), ← alike.perMinute,
      ← alike.window, ← same]
    split
    next => exact keep_alike (alike.mono order) (fun _ _ => rfl) credentialId
    next => exact keep_alike (alike.mono order) (fun _ _ => rfl) credentialId
  · rw [take_of_disabled enabled, take_of_disabled (alike.perMinute ▸ enabled)]
    exact alike.mono order

theorem Alike.answers (alike : Alike now first second) {calls : List TakeCall}
    (ordered : (calls.map TakeCall.now).Pairwise (· ≤ ·))
    (future : ∀ call ∈ calls, now ≤ call.now) : first.answers calls = second.answers calls := by
  induction calls generalizing now first second with
  | nil => rfl
  | cons call rest ih =>
      have order := future call (List.mem_cons_self ..)
      obtain ⟨before, ordered⟩ := List.pairwise_cons.mp ordered
      simp only [CredentialRateLimiter.answers]
      rw [alike.answer order call.credentialId]
      congr 1
      exact ih (alike.take order call.credentialId) ordered
        fun other member => before other.now (List.mem_map_of_mem member)

end Alike

/-- A refused request leaves a limiter that answers as before. -/
theorem refused_alike (enabled : 1 ≤ limiter.perMinute) {credentialId : String} {now : ℚ}
    (refused : (limiter.take credentialId now).1 ≠ 0) :
    Alike now (limiter.take credentialId now).2 limiter := by
  rw [take_of_enabled enabled, if_pos ((refused_iff enabled).mp refused)]
  constructor
  case perMinute => rfl
  case window => rfl
  case seen =>
    intro other later order
    simp only [keep]
    split
    next same => rw [same, recent_recent order]
    next => rfl

/-! ## The history behind the kept stamps -/

/-- The limiter that would keep every stamp. -/
def unpruned (limiter : CredentialRateLimiter) (calls : List TakeCall) : CredentialRateLimiter :=
  { limiter with seen := limiter.admitted calls }

section History

variable (limiter) (enabled : 1 ≤ limiter.perMinute)

include enabled

theorem take_unpruned {calls : List TakeCall} {call : TakeCall}
    (same : ((limiter.after calls).take call.credentialId call.now).1 =
      ((limiter.unpruned calls).take call.credentialId call.now).1) :
    Alike call.now ((limiter.unpruned calls).take call.credentialId call.now).2
      (limiter.unpruned (calls ++ [call])) := by
  have enabled' : 1 ≤ (limiter.unpruned calls).perMinute := enabled
  by_cases refused : ((limiter.unpruned calls).take call.credentialId call.now).1 = 0
  · have room := (refused_iff enabled').not.mp (not_not.mpr refused)
    rw [take_of_enabled enabled', if_neg room]
    constructor
    case perMinute => rfl
    case window => rfl
    case seen =>
      intro credentialId later order
      simp only [keep, unpruned, admitted_append]
      by_cases here : credentialId = call.credentialId
      · rw [if_pos here, if_pos ⟨here.symm, same.trans refused⟩, recent_append, recent_append,
          recent_recent order, here]
      · rw [if_neg here, if_neg fun both => here both.1.symm, List.append_nil]
  · refine (refused_alike enabled' refused).trans ?_
    constructor
    case perMinute => rfl
    case window => rfl
    case seen =>
      intro credentialId later order
      simp only [unpruned, admitted_append]
      rw [if_neg fun both => refused (same.symm.trans both.2), List.append_nil]

/-- What a run keeps answers as if nothing had been forgotten. -/
theorem after_alike (fresh : ∀ credentialId, limiter.seen credentialId = []) {calls : List TakeCall}
    (ordered : (calls.map TakeCall.now).Pairwise (· ≤ ·)) {now : ℚ}
    (past : ∀ call ∈ calls, call.now ≤ now) :
    Alike now (limiter.after calls) (limiter.unpruned calls) := by
  induction calls using List.reverseRecOn generalizing now with
  | nil =>
      constructor
      case perMinute => rfl
      case window => rfl
      case seen =>
        intro credentialId later order
        rw [after, List.foldl_nil, fresh]
        rfl
  | append_singleton calls call ih =>
      rw [List.map_append, List.pairwise_append] at ordered
      obtain ⟨ordered, -, before⟩ := ordered
      have alike : Alike call.now (limiter.after calls) (limiter.unpruned calls) :=
        ih ordered fun other member =>
          before other.now (List.mem_map_of_mem member) call.now (List.mem_singleton_self _)
      rw [after_append]
      refine Alike.mono ?_ (past call (List.mem_append_right _ (List.mem_singleton_self _)))
      exact (alike.take le_rfl call.credentialId).trans
        (take_unpruned limiter enabled (alike.answer le_rfl call.credentialId))

theorem refused_iff_admitted (fresh : ∀ credentialId, limiter.seen credentialId = [])
    {calls : List TakeCall} (ordered : (calls.map TakeCall.now).Pairwise (· ≤ ·)) {now : ℚ}
    (past : ∀ call ∈ calls, call.now ≤ now) (credentialId : String) :
    ((limiter.after calls).take credentialId now).1 ≠ 0 ↔
      limiter.perMinute ≤ (recent limiter.window now (limiter.admitted calls credentialId)).length := by
  have alike := after_alike limiter enabled fresh ordered past
  have enabled' : 1 ≤ (limiter.unpruned calls).perMinute := enabled
  rw [alike.answer le_rfl credentialId]
  exact refused_iff enabled'

/-- A call admits one request of its credential, with room for it, or none. -/
theorem admits_call (fresh : ∀ credentialId, limiter.seen credentialId = []) {calls : List TakeCall}
    (ordered : (calls.map TakeCall.now).Pairwise (· ≤ ·)) {call : TakeCall}
    (past : ∀ other ∈ calls, other.now ≤ call.now) (credentialId : String) :
    Admits limiter.window limiter.perMinute.toNat call.now (limiter.admitted calls credentialId)
      (limiter.admitted (calls ++ [call]) credentialId) := by
  rw [admitted_append]
  split
  next here =>
    refine .one ?_ le_rfl
    have room := (refused_iff_admitted limiter enabled fresh ordered past call.credentialId).not.mp
      (not_not.mpr here.2)
    rw [← recent_eq_since, ← here.1]
    omega
  next =>
    rw [List.append_nil]
    exact .none

theorem limits_kept (fresh : ∀ credentialId, limiter.seen credentialId = []) {calls : List TakeCall}
    (ordered : (calls.map TakeCall.now).Pairwise (· ≤ ·)) (credentialId : String) :
    LimitKept limiter.window limiter.perMinute.toNat (limiter.admitted calls credentialId) ∧
      LimitKeptFrom limiter.window limiter.perMinute.toNat (limiter.admitted calls credentialId) := by
  induction calls using List.reverseRecOn with
  | nil => exact ⟨fun _ => Nat.zero_le _, fun _ => Nat.zero_le _⟩
  | append_singleton calls call ih =>
      rw [List.map_append, List.pairwise_append] at ordered
      obtain ⟨ordered, -, before⟩ := ordered
      have past : ∀ other ∈ calls, other.now ≤ call.now := fun other member =>
        before other.now (List.mem_map_of_mem member) call.now (List.mem_singleton_self _)
      have admits := admits_call limiter enabled fresh ordered past credentialId
      exact ⟨admits.limitKept (ih ordered).1, admits.limitKeptFrom (ih ordered).2⟩

end History

/-! ## Credentials apart from each other -/

/-- Both limiters are in the same state as far as one credential goes. -/
structure SameFor (credentialId : String) (first second : CredentialRateLimiter) : Prop where
  perMinute : first.perMinute = second.perMinute
  window : first.window = second.window
  seen : first.seen credentialId = second.seen credentialId

section SameFor

variable {credentialId : String} {first second : CredentialRateLimiter}

theorem SameFor.take (same : SameFor credentialId first second) (now : ℚ) :
    (first.take credentialId now).1 = (second.take credentialId now).1 ∧
      SameFor credentialId (first.take credentialId now).2 (second.take credentialId now).2 := by
  by_cases enabled : 1 ≤ first.perMinute
  · rw [take_of_enabled enabled, take_of_enabled (same.perMinute ▸ enabled), ← same.perMinute,
      ← same.window, ← same.seen]
    split
    next => exact ⟨rfl, same.perMinute, same.window, by simp [keep]⟩
    next => exact ⟨rfl, same.perMinute, same.window, by simp [keep]⟩
  · rw [take_of_disabled enabled, take_of_disabled (same.perMinute ▸ enabled)]
    exact ⟨rfl, same⟩

theorem SameFor.other (same : SameFor credentialId first second) {other : String}
    (differs : other ≠ credentialId) (now : ℚ) :
    SameFor credentialId (first.take other now).2 second := by
  by_cases enabled : 1 ≤ first.perMinute
  · rw [take_of_enabled enabled]
    split
    next => exact ⟨same.perMinute, same.window, by simpa [keep, differs.symm] using same.seen⟩
    next => exact ⟨same.perMinute, same.window, by simpa [keep, differs.symm] using same.seen⟩
  · rw [take_of_disabled enabled]
    exact same

/-- A credential's answers are those of its own calls. -/
theorem SameFor.answers (same : SameFor credentialId first second) (calls : List TakeCall) :
    (((calls.zip (first.answers calls)).filter fun (call, _) =>
        call.credentialId = credentialId).map fun (_, answer) => answer) =
      second.answers (calls.filter fun call => call.credentialId = credentialId) := by
  induction calls generalizing first second with
  | nil => rfl
  | cons call rest ih =>
      simp only [CredentialRateLimiter.answers, List.zip_cons_cons]
      by_cases here : call.credentialId = credentialId
      · obtain ⟨answer, after⟩ := same.take call.now
        rw [List.filter_cons_of_pos (by simpa using here),
          List.filter_cons_of_pos (by simpa using here), List.map_cons, here, ih after]
        simp only [CredentialRateLimiter.answers, here, answer]
      · rw [List.filter_cons_of_neg (by simpa using here),
          List.filter_cons_of_neg (by simpa using here)]
        exact ih (same.other here call.now)

end SameFor

/-! ## The whole limiter -/

/-- After a refusal, the credential is admitted from the end of the wait on. -/
theorem wait_suffices (enabled : 1 ≤ limiter.perMinute) {credentialId : String} {now later : ℚ}
    (sorted : (recent limiter.window now (limiter.seen credentialId)).Pairwise (· ≤ ·))
    (few : (recent limiter.window now (limiter.seen credentialId)).length ≤
      limiter.perMinute.toNat)
    (refused : (limiter.take credentialId now).1 ≠ 0)
    (waited : now + (limiter.take credentialId now).1 ≤ later) :
    (limiter.take credentialId later).1 = 0 := by
  have full := (refused_iff enabled).mp refused
  obtain ⟨first, rest, stamps, inside, answer⟩ := refused_of_full enabled full
  obtain ⟨positive, longer, -⟩ := wait_bounds inside
  rw [answer] at waited
  rw [stamps] at sorted few full
  have order : now ≤ later := by
    have : (0 : ℚ) < (truncate (first + limiter.window - now) + 1 : Int) := by exact_mod_cast positive
    linarith
  by_contra again
  have many := (refused_iff enabled).mp again
  rw [← recent_recent order, stamps] at many
  have exactly : (first :: rest).length = limiter.perMinute.toNat := by omega
  have still : later - first < limiter.window := (full_iff sorted exactly).mp (by omega)
  simp only at waited
  linarith

/-- A run admits exactly its budget in every window; a refusal leaves no trace, and credentials do
not see each other. -/
theorem credential_limiter_window (perMinute : Int) (window : ℚ) (enabled : 1 ≤ perMinute)
    {calls : List TakeCall} (ordered : (calls.map TakeCall.now).Pairwise (· ≤ ·)) (credentialId : String) :
    let limiter : CredentialRateLimiter := { perMinute, window }
    let admitted := limiter.admitted calls credentialId
    (∀ start, ((admitted.filter fun stamp => start < stamp ∧ stamp ≤ start + window).length : Int) ≤
        perMinute ∧
      ((admitted.filter fun stamp => start ≤ stamp ∧ stamp < start + window).length : Int) ≤
        perMinute) ∧
    (∀ now, (∀ call ∈ calls, call.now ≤ now) →
      let answer := ((limiter.after calls).take credentialId now).1
      let refused := ((limiter.after calls).take credentialId now).2
      (answer ≠ 0 ↔ (admitted.filter fun stamp => now - window < stamp ∧ stamp ≤ now).length =
        perMinute) ∧
      (answer ≠ 0 → 0 < answer ∧
        (∀ later, now + answer ≤ later → (refused.take credentialId later).1 = 0) ∧
        ∀ rest : List TakeCall, (rest.map TakeCall.now).Pairwise (· ≤ ·) →
          (∀ call ∈ rest, now ≤ call.now) →
          refused.answers rest = (limiter.after calls).answers rest)) ∧
    (((calls.zip (limiter.answers calls)).filter fun (call, _) =>
        call.credentialId = credentialId).map fun (_, answer) => answer) =
      limiter.answers (calls.filter fun call => call.credentialId = credentialId) := by
  intro limiter admitted
  have fresh : ∀ credentialId, limiter.seen credentialId = [] := fun _ => rfl
  have kept := limits_kept limiter enabled fresh ordered credentialId
  have budget : ((perMinute.toNat : Nat) : Int) = perMinute := Int.toNat_of_nonneg (by omega)
  refine ⟨fun start => ⟨?_, ?_⟩, fun now past => ?_, SameFor.answers ⟨rfl, rfl, rfl⟩ calls⟩
  · have := kept.1 start
    unfold within at this
    rw [← budget]
    exact_mod_cast this
  · have := kept.2 start
    rw [← budget]
    exact_mod_cast this
  · have alike := after_alike limiter enabled fresh ordered past
    have isEnabled : 1 ≤ (limiter.after calls).perMinute := alike.perMinute ▸ enabled
    have sameWindow : (limiter.after calls).window = window := alike.window
    have history : recent (limiter.after calls).window now ((limiter.after calls).seen credentialId) =
        recent window now admitted := by
      rw [alike.seen credentialId now le_rfl, sameWindow]
      rfl
    have earlier : ∀ stamp ∈ admitted, stamp ≤ now := by
      intro stamp member
      obtain ⟨call, inside, rfl⟩ := List.mem_map.mp ((admitted_sublist calls credentialId).mem member)
      exact past call inside
    have counted : recent window now admitted =
        admitted.filter fun stamp => now - window < stamp ∧ stamp ≤ now := recent_eq_within earlier
    have few : (recent window now admitted).length ≤ perMinute.toNat := by
      rw [counted]
      have := kept.1 (now - window)
      unfold within at this
      rwa [sub_add_cancel] at this
    have full : ((limiter.after calls).take credentialId now).1 ≠ 0 ↔
        (admitted.filter fun stamp => now - window < stamp ∧ stamp ≤ now).length = perMinute := by
      rw [refused_iff_admitted limiter enabled fresh ordered past credentialId]
      change perMinute ≤ ((recent window now admitted).length : Int) ↔ _
      rw [← counted]
      omega
    refine ⟨full, fun refused => ?_⟩
    have positive : 0 < ((limiter.after calls).take credentialId now).1 := by
      obtain ⟨first, rest, -, inside, answer⟩ :=
        refused_of_full isEnabled ((refused_iff isEnabled).mp refused)
      rw [answer]
      exact (wait_bounds inside).1
    refine ⟨positive, fun later waited => ?_, fun rest inOrder future => ?_⟩
    · have order : now ≤ later := by
        have : (0 : ℚ) < (((limiter.after calls).take credentialId now).1 : Int) := by
          exact_mod_cast positive
        linarith
      rw [(refused_alike isEnabled refused).answer order credentialId]
      refine wait_suffices isEnabled ?_ ?_ refused waited
      · rw [history]
        exact (ordered.sublist (admitted_sublist calls credentialId)).sublist recent_sublist
      · rw [history, alike.perMinute]
        exact few
    · exact (refused_alike isEnabled refused).answers inOrder future

/-- Two requests a minute: the third is refused, and waiting 41 seconds admits it. -/
def sampleTakes : List TakeCall := [⟨"key", 0⟩, ⟨"key", 10⟩, ⟨"other", 15⟩, ⟨"key", 20⟩]

theorem credential_limiter_window_sampleTakes :
    let limiter : CredentialRateLimiter := { perMinute := 2, window := 60 }
    limiter.answers sampleTakes = [0, 0, 0, 41] ∧
      ((limiter.after sampleTakes).take "key" 20).1 = 41 ∧
      (((limiter.after sampleTakes).take "key" 20).2.take "key" 61).1 = 0 := by
  have ordered : (sampleTakes.map TakeCall.now).Pairwise (· ≤ ·) := by decide +kernel
  obtain ⟨-, refusals, -⟩ :=
    credential_limiter_window 2 60 (by decide) ordered "key"
  have answer : (((({ perMinute := 2, window := 60 } : CredentialRateLimiter)).after
      sampleTakes).take "key" 20).1 = 41 := by
    decide +kernel
  obtain ⟨-, waits⟩ := refusals 20 (by decide +kernel)
  refine ⟨by decide +kernel, answer, (waits ?_).2.1 61 ?_⟩
  · rw [answer]
    decide
  · rw [answer]
    norm_num

end CredentialRateLimiter

end CustomDomain
