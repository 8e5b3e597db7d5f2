import CustomDomain.DoubleRounding
import CustomDomain.IpNetworks
import CustomDomain.PrunedWindows

/-!
# Failed authentication

`buckets` and `FailedAuthLimiter` of `app/v1/throttle.py`: failures are counted for the address of
an IPv4 client, and for the /64 and the /48 of an IPv6 client.
-/

namespace CustomDomain

open SlidingWindow DoubleRounding PythonIp PythonText

/-- `PREFIX48_FACTOR`. -/
def prefix48Factor : Nat := 10

/-- `buckets`: the keys a client address counts against, with their budget multiplier. -/
def buckets (address : String) : List (String × Nat) :=
  match ipAddress address with
  | none => [(address, 1)]
  | some (.v6 value) =>
      [(ipv6NetworkText value (scopeId address) 64, 1),
        (ipv6NetworkText value (scopeId address) 48, prefix48Factor)]
  | some (.v4 value) => [(ipv4Text value, 1)]

/-- The stamps of one bucket. -/
abbrev BucketEntry := String × List ℚ

structure FailedAuthLimiter where
  maxFailures : Int := 30
  window : ℚ := 60
  maxTracked : Nat := 50000
  failures : List BucketEntry := []

namespace FailedAuthLimiter

def enabled (limiter : FailedAuthLimiter) : Bool := 0 < limiter.maxFailures

/-- `self._failures.get(key, ())`. -/
def stamps (limiter : FailedAuthLimiter) (key : String) : List ℚ :=
  (limiter.failures.lookup key).getD []

/-- `retry_after`. -/
def retryAfter (limiter : FailedAuthLimiter) (address : String) (now : ℚ) : Int :=
  if limiter.enabled then
    (buckets address).foldl
      (fun wait (key, factor) =>
        let stamps := recent limiter.window now (limiter.stamps key)
        if limiter.maxFailures * factor ≤ stamps.length then
          -- the budget is positive, so there is a first stamp
          max wait (truncate (stamps.headD 0 + limiter.window - now) + 1)
        else wait)
      0
  else 0

/-- The table with the failure of one bucket moved to its end. -/
def stamped (limiter : FailedAuthLimiter) (bucket : String × Nat) (now : ℚ) : List BucketEntry :=
  let limit := limiter.maxFailures * bucket.2
  let stamps := recent limiter.window now (limiter.stamps bucket.1) ++ [now]
  limiter.failures.filter (fun entry => entry.1 != bucket.1) ++
    [(bucket.1, newest limit.toNat stamps)]

/-- `while len(self._failures) > self.max_tracked: del self._failures[next(iter(self._failures))]`:
the deleted entries, each with the entries that were left behind it, and the table at last. -/
def evict (maxTracked : Nat) : List BucketEntry → List (BucketEntry × List BucketEntry) ×
    List BucketEntry
  | [] => ([], [])
  | entry :: rest =>
      if maxTracked < rest.length + 1 then
        let (evictions, table) := evict maxTracked rest
        ((entry, rest) :: evictions, table)
      else ([], entry :: rest)

/-- The body of the loop of `record_failure`. -/
def recordBucket (limiter : FailedAuthLimiter) (bucket : String × Nat) (now : ℚ) :
    FailedAuthLimiter :=
  { limiter with failures := (evict limiter.maxTracked (limiter.stamped bucket now)).2 }

/-- `record_failure`. -/
def recordFailure (limiter : FailedAuthLimiter) (address : String) (now : ℚ) :
    FailedAuthLimiter :=
  if limiter.enabled then
    (buckets address).foldl (fun limiter bucket => limiter.recordBucket bucket now) limiter
  else limiter

end FailedAuthLimiter

inductive AuthCall where
  | retryAfter (address : String) (now : ℚ)
  | recordFailure (address : String) (now : ℚ)

namespace AuthCall

def address : AuthCall → String
  | retryAfter address _ => address
  | recordFailure address _ => address

def now : AuthCall → ℚ
  | retryAfter _ now => now
  | recordFailure _ now => now

/-- The failure that the call records. -/
def failure? : AuthCall → Option (String × ℚ)
  | retryAfter _ _ => none
  | recordFailure address now => some (address, now)

end AuthCall

/-- A text that `ip_address` accepts. -/
def IsAddress (text : String) : Prop := (ipAddress text).isSome

instance (text : String) : Decidable (IsAddress text) := inferInstanceAs (Decidable (_ = true))

/-- The times of the failures that count against a bucket. -/
def bucketFailures (calls : List AuthCall) (key : String) : List ℚ :=
  ((calls.filterMap AuthCall.failure?).filter fun failure =>
    key ∈ (buckets failure.1).map Prod.fst).map Prod.snd

/-- The failures of a bucket in `(now - window, now]`. -/
def failuresWithin (calls : List AuthCall) (key : String) (window now : ℚ) : Nat :=
  ((bucketFailures calls key).filter fun stamp => now - window < stamp ∧ stamp ≤ now).length

/-- The failures one after the other, bucket by bucket. -/
def stampings (calls : List AuthCall) : List ((String × Nat) × ℚ) :=
  (calls.filterMap AuthCall.failure?).flatMap fun failure =>
    (buckets failure.1).map fun bucket => (bucket, failure.2)

/-- The stamps of a bucket in a history. -/
def stampsOf (history : List ((String × Nat) × ℚ)) (key : String) : List ℚ :=
  (history.filter fun stamping => stamping.1.1 = key).map Prod.snd

/-- Both buckets have failed, and the last failure of the first is no later than that of the
second. -/
def FailedBefore (history : List ((String × Nat) × ℚ)) (first second : String) : Prop :=
  ∃ firstLast secondLast, (stampsOf history first).getLast? = some firstLast ∧
    (stampsOf history second).getLast? = some secondLast ∧ firstLast ≤ secondLast

namespace FailedAuthLimiter

def step (limiter : FailedAuthLimiter) : AuthCall → FailedAuthLimiter
  | .retryAfter _ _ => limiter
  | .recordFailure address now => limiter.recordFailure address now

def run (limiter : FailedAuthLimiter) (calls : List AuthCall) : FailedAuthLimiter :=
  calls.foldl step limiter

/-- The limiter after some of the stampings. -/
def stampAll (limiter : FailedAuthLimiter) (history : List ((String × Nat) × ℚ)) :
    FailedAuthLimiter :=
  history.foldl (fun limiter stamping => limiter.recordBucket stamping.1 stamping.2) limiter

/-- What `record_failure` evicts when it records a stamping. -/
def evictionsAt (limiter : FailedAuthLimiter) (history : List ((String × Nat) × ℚ))
    (stamping : (String × Nat) × ℚ) : List (BucketEntry × List BucketEntry) :=
  (evict limiter.maxTracked ((limiter.stampAll history).stamped stamping.1 stamping.2)).1

/-- No bucket is evicted while the calls run. -/
def NoEviction (limiter : FailedAuthLimiter) (calls : List AuthCall) : Prop :=
  ∀ before stamping after, stampings calls = before ++ stamping :: after →
    limiter.evictionsAt before stamping = []

end FailedAuthLimiter

/-! ## Buckets -/

/-- The multiplier that the text of a key stands for. -/
def bucketFactor (key : String) : Nat :=
  if (rpartition '/' key).map Prod.snd = some "48" then prefix48Factor else 1

theorem ipv4Text_no_slash (value : Nat) : '/' ∉ (ipv4Text value).toList := by
  have digits (number : Nat) : '/' ∉ (toString number).toList := fun inside =>
    absurd (toString_digits number '/' inside) (by decide)
  simp only [ipv4Text, String.toList_intercalate, List.map_cons, List.map_nil,
    List.intercalate_cons_cons, List.intercalate_singleton, List.mem_append, not_or]
  have dot : '/' ∉ ".".toList := by decide
  exact ⟨⟨digits _, dot⟩, ⟨digits _, dot⟩, ⟨digits _, dot⟩, digits _⟩

theorem rpartition_networkText (value : Nat) (scope : Option String) (prefixlen : Nat) :
    (rpartition '/' (ipv6NetworkText value scope prefixlen)).map Prod.snd =
      some (toString prefixlen) := by
  have absent : '/' ∉ (toString prefixlen).toList := fun inside =>
    absurd (toString_digits prefixlen '/' inside) (by decide)
  rw [ipv6NetworkText, show "/" = String.singleton '/' from rfl, rpartition_append absent]
  rfl

theorem buckets_factor {address : String} (accepted : IsAddress address) {bucket : String × Nat}
    (member : bucket ∈ buckets address) : bucket.2 = bucketFactor bucket.1 := by
  unfold buckets at member
  split at member
  next refused => simp [IsAddress, refused] at accepted
  next value _ =>
    rcases List.mem_cons.mp member with rfl | second
    · rw [bucketFactor, rpartition_networkText, if_neg (by decide)]
    · rw [List.mem_singleton.mp second, bucketFactor, rpartition_networkText, if_pos (by decide)]
  next value _ =>
    rw [List.mem_singleton.mp member, bucketFactor,
      rpartition_eq_none.mpr (ipv4Text_no_slash value), if_neg (by simp)]

theorem buckets_positive {address : String} {bucket : String × Nat}
    (member : bucket ∈ buckets address) : 0 < bucket.2 := by
  unfold buckets at member
  split at member
  next => simp_all
  next =>
    rcases List.mem_cons.mp member with rfl | second
    · exact Nat.one_pos
    · rw [List.mem_singleton.mp second]
      exact Nat.succ_pos 9
  next => simp_all

theorem buckets_distinct (address : String) : ((buckets address).map Prod.fst).Nodup := by
  unfold buckets
  split
  next => exact List.pairwise_singleton _ _
  next value _ =>
    rw [List.map_cons, List.map_singleton, List.nodup_cons, List.mem_singleton]
    refine ⟨fun same => ?_, List.pairwise_singleton _ _⟩
    have lengths := congrArg (fun text => (rpartition '/' text).map Prod.snd) same
    simp only [rpartition_networkText] at lengths
    exact absurd lengths (by decide)
  next => exact List.pairwise_singleton _ _

/-- Whether two clients share a bucket with the plain budget: one IPv4 address, or one /64. -/
def SameClient : IpAddress → IpAddress → Prop
  | .v4 first, .v4 second => first = second
  | .v6 first, .v6 second => first / 2 ^ 64 = second / 2 ^ 64
  | _, _ => False

/-- Whether two clients are in one /48. -/
def Same48 : IpAddress → IpAddress → Prop
  | .v6 first, .v6 second => first / 2 ^ 80 = second / 2 ^ 80
  | _, _ => False

theorem buckets_shared {first second : String} {firstIp secondIp : IpAddress}
    (readFirst : ipAddress first = some firstIp) (readSecond : ipAddress second = some secondIp)
    (plainFirst : scopeId first = none) (plainSecond : scopeId second = none) :
    ((∃ key, (key, 1) ∈ buckets first ∧ (key, 1) ∈ buckets second) ↔
        SameClient firstIp secondIp) ∧
      ((∃ key, (key, prefix48Factor) ∈ buckets first ∧ (key, prefix48Factor) ∈ buckets second) ↔
        Same48 firstIp secondIp) := by
  have apart (value other : Nat) : ipv4Text value ≠ ipv6NetworkText other none 64 := by
    intro same
    have parts := congrArg (fun text => (rpartition '/' text).map Prod.snd) same
    simp only [rpartition_networkText, rpartition_eq_none.mpr (ipv4Text_no_slash value)] at parts
    cases parts
  have differ : (1 : Nat) ≠ prefix48Factor := by decide
  unfold buckets
  rw [readFirst, readSecond]
  cases firstIp with
  | v4 first =>
      cases secondIp with
      | v4 second =>
          simp [SameClient, Same48, differ.symm]
          exact ⟨ipv4Text_injective, fun same => same ▸ rfl⟩
      | v6 second =>
          simp [SameClient, Same48, differ, differ.symm, plainSecond, apart]
  | v6 first =>
      cases secondIp with
      | v4 second =>
          simp [SameClient, Same48, differ, differ.symm, plainFirst, (apart second first).symm]
      | v6 second =>
          have net64 := ipv6NetworkText_eq_iff (show 64 ≤ 64 from le_rfl) first second
          have net48 := ipv6NetworkText_eq_iff (show 48 ≤ 64 by decide) first second
          simp [SameClient, Same48, differ, differ.symm, plainFirst, plainSecond]
          exact ⟨net64, net48⟩

/-! ## The table -/

section Evict

variable {maxTracked : Nat}

theorem lookup_filter_ne {key other : String} (differs : other ≠ key) (table : List BucketEntry) :
    (table.filter fun entry => entry.1 != key).lookup other = table.lookup other := by
  induction table with
  | nil => rfl
  | cons entry rest ih =>
      by_cases here : entry.1 = key
      · rw [List.filter_cons_of_neg (by simpa using here), ih, List.lookup_cons,
          beq_eq_false_iff_ne.mpr (here ▸ differs)]
      · rw [List.filter_cons_of_pos (by simpa using here), List.lookup_cons, List.lookup_cons, ih]

theorem lookup_filter_self (key : String) (table : List BucketEntry) :
    (table.filter fun entry => entry.1 != key).lookup key = none := by
  refine List.lookup_eq_none_iff.mpr fun entry member => ?_
  exact bne_iff_ne.mpr (Ne.symm (bne_iff_ne.mp (List.mem_filter.mp member).2))

namespace FailedAuthLimiter

theorem evict_suffix (table : List BucketEntry) : (evict maxTracked table).2 <:+ table := by
  induction table with
  | nil => exact List.suffix_refl _
  | cons entry rest ih =>
      rw [evict]
      split
      next => exact ih.trans (List.suffix_cons entry rest)
      next => exact List.suffix_refl _

theorem evict_size (table : List BucketEntry) :
    (evict maxTracked table).2.length ≤ maxTracked := by
  induction table with
  | nil => exact Nat.zero_le _
  | cons entry rest ih =>
      rw [evict]
      split
      next => exact ih
      next few => simpa using few

/-- An entry is deleted in front of the entries it leaves. -/
theorem eviction_suffix {table : List BucketEntry} {eviction : BucketEntry × List BucketEntry}
    (member : eviction ∈ (evict maxTracked table).1) :
    eviction.1 :: eviction.2 <:+ table := by
  induction table with
  | nil => cases member
  | cons entry rest ih =>
      rw [evict] at member
      split at member
      next =>
        rcases List.mem_cons.mp member with rfl | later
        · exact List.suffix_refl _
        · exact (ih later).trans (List.suffix_cons entry rest)
      next => cases member

theorem evict_of_none {table : List BucketEntry} (none : (evict maxTracked table).1 = []) :
    (evict maxTracked table).2 = table := by
  cases table with
  | nil => rfl
  | cons entry rest =>
      rw [evict] at none ⊢
      split at none
      next => cases none
      next few => rw [if_neg few]

end FailedAuthLimiter

end Evict

section History

variable {history : List ((String × Nat) × ℚ)} {key : String}

theorem stampsOf_append (bucket : String × Nat) (now : ℚ) :
    stampsOf (history ++ [(bucket, now)]) key =
      stampsOf history key ++ if bucket.1 = key then [now] else [] := by
  rw [stampsOf, List.filter_append, List.map_append]
  by_cases here : bucket.1 = key
  · simp [here, stampsOf]
  · simp [here, stampsOf]

end History

namespace FailedAuthLimiter

/-- `self.max_failures * factor`, of the factor that the key stands for. -/
def budget (limiter : FailedAuthLimiter) (key : String) : Nat :=
  (limiter.maxFailures * bucketFactor key).toNat

/-- What the table says about the history up to `now`, whatever was evicted. -/
structure Tracks (limiter : FailedAuthLimiter) (history : List ((String × Nat) × ℚ)) (now : ℚ) :
    Prop where
  entry : ∀ entry ∈ limiter.failures, entry.2.Pairwise (· ≤ ·) ∧ (∀ stamp ∈ entry.2, stamp ≤ now) ∧
    entry.2.length ≤ limiter.budget entry.1
  failed : ∀ entry ∈ limiter.failures,
    ∃ last, (stampsOf history entry.1).getLast? = some last ∧ last ≤ now
  ordered : limiter.failures.Pairwise fun first second => FailedBefore history first.1 second.1
  size : limiter.failures.length ≤ limiter.maxTracked

section Tracks

variable {limiter : FailedAuthLimiter} {history : List ((String × Nat) × ℚ)} {now later : ℚ}
  {bucket : String × Nat}

theorem stamps_cases (limiter : FailedAuthLimiter) (key : String) :
    limiter.stamps key = [] ∨ (key, limiter.stamps key) ∈ limiter.failures := by
  unfold stamps
  cases found : limiter.failures.lookup key with
  | none => exact .inl rfl
  | some entry =>
      obtain ⟨front, back, table, -⟩ := List.lookup_eq_some_iff.mp found
      right
      rw [table]
      simp

theorem Tracks.stamps (tracks : Tracks limiter history now) (key : String) :
    (limiter.stamps key).Pairwise (· ≤ ·) ∧ (∀ stamp ∈ limiter.stamps key, stamp ≤ now) ∧
      (limiter.stamps key).length ≤ limiter.budget key := by
  rcases stamps_cases limiter key with empty | member
  · rw [empty]
    exact ⟨.nil, fun _ none => absurd none List.not_mem_nil, Nat.zero_le _⟩
  · exact tracks.entry _ member

/-- The table before anything is evicted has the recorded bucket last. -/
theorem Tracks.stamped (tracks : Tracks limiter history now) (order : now ≤ later)
    (factor : bucket.2 = bucketFactor bucket.1) :
    (∀ entry ∈ limiter.stamped bucket later, entry.2.Pairwise (· ≤ ·) ∧
      (∀ stamp ∈ entry.2, stamp ≤ later) ∧ entry.2.length ≤ limiter.budget entry.1) ∧
    (∀ entry ∈ limiter.stamped bucket later,
      ∃ last, (stampsOf (history ++ [(bucket, later)]) entry.1).getLast? = some last ∧
        last ≤ later) ∧
    (limiter.stamped bucket later).Pairwise fun first second =>
      FailedBefore (history ++ [(bucket, later)]) first.1 second.1 := by
  have other {entry : BucketEntry}
      (member : entry ∈ limiter.failures.filter fun entry => entry.1 != bucket.1) :
      entry ∈ limiter.failures ∧ entry.1 ≠ bucket.1 := by
    simpa using List.mem_filter.mp member
  have unchanged {key : String} (differs : key ≠ bucket.1) :
      stampsOf (history ++ [(bucket, later)]) key = stampsOf history key := by
    rw [stampsOf_append, if_neg (Ne.symm differs), List.append_nil]
  have last : (stampsOf (history ++ [(bucket, later)]) bucket.1).getLast? = some later := by
    rw [stampsOf_append, if_pos rfl, List.getLast?_concat]
  refine ⟨fun entry member => ?_, fun entry member => ?_, ?_⟩
  · rcases List.mem_append.mp member with old | new
    · obtain ⟨sorted, past, few⟩ := tracks.entry entry (other old).1
      exact ⟨sorted, fun stamp inside => (past stamp inside).trans order, few⟩
    · obtain ⟨sorted, past, -⟩ := tracks.stamps bucket.1
      rw [List.mem_singleton.mp new]
      have earlier : ∀ stamp ∈ recent limiter.window later (limiter.stamps bucket.1),
          stamp ≤ later := fun stamp inside => (past stamp (recent_sublist.mem inside)).trans order
      refine ⟨?_, fun stamp inside => ?_, ?_⟩
      · refine List.Pairwise.sublist newest_sublist (List.pairwise_append.mpr
          ⟨sorted.sublist recent_sublist, List.pairwise_singleton _ _, ?_⟩)
        intro stamp inside current single
        rw [List.mem_singleton.mp single]
        exact earlier stamp inside
      · rcases List.mem_append.mp (newest_sublist.mem inside) with kept | new
        · exact earlier stamp kept
        · exact (List.mem_singleton.mp new).le
      · simp only [newest_length, budget, ← factor]
        omega
  · rcases List.mem_append.mp member with old | new
    · obtain ⟨last, found, past⟩ := tracks.failed entry (other old).1
      exact ⟨last, by rw [unchanged (other old).2, found], past.trans order⟩
    · rw [List.mem_singleton.mp new]
      exact ⟨later, last, le_rfl⟩
  · refine List.pairwise_append.mpr ⟨?_, List.pairwise_singleton _ _, ?_⟩
    · have kept := tracks.ordered.sublist
        (List.filter_sublist (p := fun entry : BucketEntry => entry.1 != bucket.1))
      refine kept.imp_of_mem fun first second before => ?_
      rw [FailedBefore, unchanged (other first).2, unchanged (other second).2]
      exact before
    · intro entry member current single
      obtain ⟨entryLast, found, past⟩ := tracks.failed entry (other member).1
      rw [List.mem_singleton.mp single]
      exact ⟨entryLast, later, by rw [unchanged (other member).2, found], last, past.trans order⟩

theorem Tracks.record (tracks : Tracks limiter history now) (order : now ≤ later)
    (factor : bucket.2 = bucketFactor bucket.1) :
    Tracks (limiter.recordBucket bucket later) (history ++ [(bucket, later)]) later := by
  obtain ⟨entries, failed, ordered⟩ := tracks.stamped order factor
  have kept : (limiter.recordBucket bucket later).failures <:+ limiter.stamped bucket later :=
    evict_suffix _
  exact ⟨fun entry member => entries entry (kept.subset member),
    fun entry member => failed entry (kept.subset member), ordered.sublist kept.sublist,
    evict_size _⟩

end Tracks

/-- While nothing is evicted, the kept stamps count as the whole history does. -/
theorem counts_record {limiter : FailedAuthLimiter} {history : List ((String × Nat) × ℚ)}
    {now later : ℚ} {bucket : String × Nat} (tracks : Tracks limiter history now)
    (counts : ∀ key, Counts limiter.window (limiter.budget key) now (limiter.stamps key)
      (stampsOf history key))
    (order : now ≤ later) (factor : bucket.2 = bucketFactor bucket.1)
    (quiet : (evict limiter.maxTracked (limiter.stamped bucket later)).1 = []) (key : String) :
    Counts limiter.window (limiter.budget key) later
      ((limiter.recordBucket bucket later).stamps key)
      (stampsOf (history ++ [(bucket, later)]) key) := by
  have table : (limiter.recordBucket bucket later).failures = limiter.stamped bucket later :=
    evict_of_none quiet
  rw [stampsOf_append]
  by_cases here : bucket.1 = key
  · have stored : (limiter.recordBucket bucket later).stamps key =
        newest (limiter.budget key)
          (recent limiter.window later (limiter.stamps key) ++ [later]) := by
      rw [stamps, table, stamped, List.lookup_append, ← here, lookup_filter_self,
        budget, ← factor]
      simp
    obtain ⟨sorted, past, -⟩ := tracks.stamps key
    rw [if_pos here, stored]
    exact (counts key).record order sorted past
  · have stored : (limiter.recordBucket bucket later).stamps key = limiter.stamps key := by
      rw [stamps, table, stamped, List.lookup_append, lookup_filter_ne (Ne.symm here),
        List.lookup_cons, beq_eq_false_iff_ne.mpr (Ne.symm here), List.lookup_nil, Option.or_none,
        stamps]
    rw [if_neg here, List.append_nil, stored]
    exact (counts key).mono order

/-! ## Whole histories -/

section Histories

variable (limiter : FailedAuthLimiter) {history : List ((String × Nat) × ℚ)} {now : ℚ}

theorem stampAll_append (stamping : (String × Nat) × ℚ) :
    limiter.stampAll (history ++ [stamping]) =
      (limiter.stampAll history).recordBucket stamping.1 stamping.2 := by
  rw [stampAll, List.foldl_append]
  rfl

theorem stampAll_settings (history : List ((String × Nat) × ℚ)) :
    (limiter.stampAll history).maxFailures = limiter.maxFailures ∧
      (limiter.stampAll history).window = limiter.window ∧
      (limiter.stampAll history).maxTracked = limiter.maxTracked := by
  induction history using List.reverseRecOn with
  | nil => exact ⟨rfl, rfl, rfl⟩
  | append_singleton history stamping ih =>
      rw [stampAll_append]
      exact ih

/-- A history in the order of time, of buckets that clients have. -/
structure Proper (history : List ((String × Nat) × ℚ)) : Prop where
  ordered : (history.map Prod.snd).Pairwise (· ≤ ·)
  factor : ∀ stamping ∈ history, stamping.1.2 = bucketFactor stamping.1.1

theorem Proper.of_append {before after : List ((String × Nat) × ℚ)}
    (proper : Proper (before ++ after)) : Proper before where
  ordered := by
    have ordered := proper.ordered
    rw [List.map_append] at ordered
    exact (List.pairwise_append.mp ordered).1
  factor := fun stamping member => proper.factor stamping (List.mem_append_left _ member)

theorem Proper.past {stamping : (String × Nat) × ℚ} (proper : Proper (history ++ [stamping])) :
    ∀ earlier ∈ history, earlier.2 ≤ stamping.2 := by
  have ordered := proper.ordered
  rw [List.map_append] at ordered
  exact fun earlier member => (List.pairwise_append.mp ordered).2.2 earlier.2
    (List.mem_map_of_mem member) stamping.2 (List.mem_singleton_self _)

variable (fresh : limiter.failures = [])

include fresh

theorem tracks_stampAll (proper : Proper history) (past : ∀ stamping ∈ history, stamping.2 ≤ now) :
    Tracks (limiter.stampAll history) history now := by
  induction history using List.reverseRecOn generalizing now with
  | nil =>
      have empty : (limiter.stampAll []).failures = [] := fresh
      constructor <;> simp [empty]
  | append_singleton history stamping ih =>
      have tracks := (ih proper.of_append proper.past).record le_rfl
        (proper.factor stamping (List.mem_append_right _ (List.mem_singleton_self _)))
      have order := past stamping (List.mem_append_right _ (List.mem_singleton_self _))
      rw [← stampAll_append] at tracks
      refine ⟨fun entry member => ?_, fun entry member => ?_, tracks.ordered, tracks.size⟩
      · obtain ⟨sorted, earlier, few⟩ := tracks.entry entry member
        exact ⟨sorted, fun stamp inside => (earlier stamp inside).trans order, few⟩
      · obtain ⟨last, found, earlier⟩ := tracks.failed entry member
        exact ⟨last, found, earlier.trans order⟩

theorem counts_stampAll (proper : Proper history) (past : ∀ stamping ∈ history, stamping.2 ≤ now)
    (quiet : ∀ before stamping after, history = before ++ stamping :: after →
      limiter.evictionsAt before stamping = []) (key : String) :
    Counts limiter.window (limiter.budget key) now ((limiter.stampAll history).stamps key)
      (stampsOf history key) := by
  induction history using List.reverseRecOn generalizing now key with
  | nil =>
      have empty : (limiter.stampAll []).stamps key = [] := by
        rw [stamps, show (limiter.stampAll []).failures = [] from fresh]
        rfl
      rw [empty]
      exact fun _ _ => rfl
  | append_singleton history stamping ih =>
      obtain ⟨failures, window, tracked⟩ := limiter.stampAll_settings history
      have tracks := limiter.tracks_stampAll fresh proper.of_append proper.past
      have quietLast : (evict (limiter.stampAll history).maxTracked
          ((limiter.stampAll history).stamped stamping.1 stamping.2)).1 = [] := by
        rw [tracked]
        exact quiet history stamping [] rfl
      have earlier (key : String) := ih proper.of_append proper.past
        (fun before stamping' after shape => quiet before stamping' (after ++ [stamping])
          (by rw [shape, List.append_assoc, List.cons_append])) key
      have budgets (key : String) : (limiter.stampAll history).budget key = limiter.budget key := by
        rw [budget, failures, budget]
      have counts := counts_record tracks (fun key => by
          rw [window, budgets]
          exact earlier key) le_rfl
        (proper.factor stamping (List.mem_append_right _ (List.mem_singleton_self _))) quietLast key
      rw [window, budgets, ← stampAll_append] at counts
      exact counts.mono (past stamping (List.mem_append_right _ (List.mem_singleton_self _)))

end Histories

/-! ## From calls to stampings -/

section Calls

variable {limiter : FailedAuthLimiter} {calls : List AuthCall}

theorem run_eq (enabled : limiter.enabled = true) :
    limiter.run calls = limiter.stampAll (stampings calls) := by
  induction calls generalizing limiter with
  | nil => rfl
  | cons call rest ih =>
      rw [run, List.foldl_cons]
      cases call with
      | retryAfter address now => exact ih enabled
      | recordFailure address now =>
          have first : limiter.step (.recordFailure address now) =
              limiter.stampAll ((buckets address).map fun bucket => (bucket, now)) := by
            rw [step, recordFailure, if_pos enabled, stampAll, List.foldl_map]
          have still : (limiter.stampAll
              ((buckets address).map fun bucket => (bucket, now))).enabled = true := by
            rw [FailedAuthLimiter.enabled, (limiter.stampAll_settings _).1]
            exact enabled
          rw [first]
          refine (ih still).trans ?_
          rw [stampAll, stampAll, ← List.foldl_append]
          rfl

theorem mem_stampings {stamping : (String × Nat) × ℚ} (member : stamping ∈ stampings calls) :
    ∃ call ∈ calls, stamping.1 ∈ buckets call.address ∧ stamping.2 = call.now := by
  obtain ⟨failure, inside, spread⟩ := List.mem_flatMap.mp member
  obtain ⟨bucket, among, rfl⟩ := List.mem_map.mp spread
  obtain ⟨call, present, recorded⟩ := List.mem_filterMap.mp inside
  cases call with
  | retryAfter => cases recorded
  | recordFailure address now =>
      cases recorded
      exact ⟨_, present, among, rfl⟩

theorem stampings_cons (call : AuthCall) (rest : List AuthCall) :
    stampings (call :: rest) =
      (match call.failure? with
        | some failure => (buckets failure.1).map fun bucket => (bucket, failure.2)
        | none => []) ++ stampings rest := by
  rw [stampings, List.filterMap_cons]
  cases call.failure? with
  | none => rfl
  | some failure => rfl

theorem stampings_proper (ordered : (calls.map AuthCall.now).Pairwise (· ≤ ·))
    (addresses : ∀ call ∈ calls, IsAddress call.address) : Proper (stampings calls) where
  ordered := by
    induction calls with
    | nil => exact .nil
    | cons call rest ih =>
        obtain ⟨first, later⟩ := List.pairwise_cons.mp ordered
        rw [stampings_cons, List.map_append]
        refine List.pairwise_append.mpr ⟨?_,
          ih later fun other member => addresses other (List.mem_cons_of_mem _ member), ?_⟩
        · cases call with
          | retryAfter => exact .nil
          | recordFailure address now =>
              simp only [AuthCall.failure?, List.map_map]
              exact List.pairwise_map.mpr (List.pairwise_of_forall fun _ _ => le_rfl)
        · intro early inEarly late inLate
          obtain ⟨stamping, member, rfl⟩ := List.mem_map.mp inLate
          obtain ⟨other, among, -, at_⟩ := mem_stampings member
          have bound : call.now ≤ stamping.2 := at_ ▸ first other.now (List.mem_map_of_mem among)
          cases call with
          | retryAfter => cases inEarly
          | recordFailure address now =>
              simp only [AuthCall.failure?, List.map_map, List.mem_map] at inEarly
              obtain ⟨_, -, rfl⟩ := inEarly
              exact bound
  factor := by
    intro stamping member
    obtain ⟨call, present, among, -⟩ := mem_stampings member
    exact buckets_factor (addresses call present) among

/-- A call stamps each of its buckets once. -/
theorem stampsOf_once {keys : List (String × Nat)} (distinct : (keys.map Prod.fst).Nodup)
    (now : ℚ) (key : String) :
    stampsOf (keys.map fun bucket => (bucket, now)) key =
      if key ∈ keys.map Prod.fst then [now] else [] := by
  induction keys with
  | nil => rfl
  | cons bucket rest ih =>
      obtain ⟨absent, distinct⟩ := List.nodup_cons.mp distinct
      have later := ih distinct
      unfold stampsOf at later ⊢
      rw [List.map_cons, List.map_cons]
      by_cases here : bucket.1 = key
      · rw [List.filter_cons_of_pos (by simpa using here), List.map_cons, later, ← here,
          if_neg absent, if_pos (List.mem_cons_self ..)]
      · rw [List.filter_cons_of_neg (by simpa using here), later]
        simp only [List.mem_cons, Ne.symm here, false_or]

theorem stampsOf_stampings (calls : List AuthCall) (key : String) :
    stampsOf (stampings calls) key = bucketFailures calls key := by
  induction calls with
  | nil => rfl
  | cons call rest ih =>
      have both (first second : List ((String × Nat) × ℚ)) :
          stampsOf (first ++ second) key = stampsOf first key ++ stampsOf second key := by
        rw [stampsOf, List.filter_append, List.map_append, stampsOf, stampsOf]
      rw [stampings_cons, both, ih]
      cases call with
      | retryAfter => rfl
      | recordFailure address now =>
          simp only [AuthCall.failure?]
          rw [stampsOf_once (buckets_distinct address)]
          unfold bucketFailures
          rw [List.filterMap_cons]
          simp only [AuthCall.failure?]
          by_cases inside : key ∈ (buckets address).map Prod.fst
          · rw [if_pos inside, List.filter_cons_of_pos (by simpa using inside), List.map_cons,
              List.singleton_append]
          · rw [if_neg inside, List.filter_cons_of_neg (by simpa using inside), List.nil_append]

end Calls

/-! ## What `retry_after` answers -/

section Answers

variable {limiter : FailedAuthLimiter}

/-- The bucket's budget is used up. -/
def Full (limiter : FailedAuthLimiter) (now : ℚ) (bucket : String × Nat) : Prop :=
  limiter.maxFailures * bucket.2 ≤ (recent limiter.window now (limiter.stamps bucket.1)).length

instance (limiter : FailedAuthLimiter) (now : ℚ) (bucket : String × Nat) :
    Decidable (limiter.Full now bucket) := inferInstanceAs (Decidable (_ ≤ _))

/-- What one bucket adds to the wait. -/
def bucketWait (limiter : FailedAuthLimiter) (now : ℚ) (bucket : String × Nat) : Int :=
  if limiter.Full now bucket then
    truncate ((recent limiter.window now (limiter.stamps bucket.1)).headD 0 + limiter.window - now) + 1
  else 0

/-- A used up budget has a first stamp, which tells the wait. -/
theorem bucketWait_of_full (enabled : limiter.enabled = true) {now : ℚ} {bucket : String × Nat}
    (positive : 0 < bucket.2) (full : limiter.Full now bucket) :
    ∃ first rest, recent limiter.window now (limiter.stamps bucket.1) = first :: rest ∧
      now - first < limiter.window ∧ 0 < limiter.bucketWait now bucket ∧
      first + limiter.window - now < limiter.bucketWait now bucket ∧
      ((limiter.bucketWait now bucket - 1 : Int) : ℚ) ≤ first + limiter.window - now := by
  have budget : 0 < limiter.maxFailures * bucket.2 :=
    Int.mul_pos (of_decide_eq_true enabled) (by exact_mod_cast positive)
  have many := full
  unfold Full at many
  cases stamps : recent limiter.window now (limiter.stamps bucket.1) with
  | nil =>
      rw [stamps, List.length_nil] at many
      omega
  | cons first rest =>
      have inside : now - first < limiter.window :=
        (mem_recent.mp (stamps ▸ List.mem_cons_self .. :
          first ∈ recent limiter.window now (limiter.stamps bucket.1))).2
      have shape : limiter.bucketWait now bucket = truncate (first + limiter.window - now) + 1 := by
        rw [bucketWait, if_pos full, stamps, List.headD_cons]
      have rest_ : 0 ≤ first + limiter.window - now := by linarith
      have floor := Int.floor_nonneg.mpr rest_
      rw [shape, truncate, if_pos rest_]
      refine ⟨first, rest, rfl, inside, by omega, ?_, ?_⟩
      · push_cast
        exact Int.lt_floor_add_one _
      · rw [add_sub_cancel_right]
        exact Int.floor_le _

theorem foldl_waits (now : ℚ) (list : List (String × Nat)) (start : Int) :
    let result := list.foldl
      (fun wait bucket =>
        if limiter.Full now bucket then
          max wait (truncate ((recent limiter.window now (limiter.stamps bucket.1)).headD 0 +
            limiter.window - now) + 1)
        else wait)
      start
    start ≤ result ∧
      (∀ bucket ∈ list, limiter.Full now bucket → limiter.bucketWait now bucket ≤ result) ∧
      (result = start ∨ ∃ bucket ∈ list, limiter.Full now bucket ∧
        result = limiter.bucketWait now bucket) := by
  induction list generalizing start with
  | nil => exact ⟨le_rfl, fun _ none => absurd none List.not_mem_nil, .inl rfl⟩
  | cons bucket rest ih =>
      simp only [List.foldl_cons] at ih ⊢
      by_cases full : limiter.Full now bucket
      · have wait : limiter.bucketWait now bucket =
            truncate ((recent limiter.window now (limiter.stamps bucket.1)).headD 0 +
              limiter.window - now) + 1 := if_pos full
        rw [if_pos full, ← wait]
        obtain ⟨grown, waits, which⟩ := ih (max start (limiter.bucketWait now bucket))
        refine ⟨(le_max_left _ _).trans grown, fun other member isFull => ?_, ?_⟩
        · rcases List.mem_cons.mp member with rfl | after
          · exact (le_max_right _ _).trans grown
          · exact waits other after isFull
        · rcases which with same | ⟨other, after, isFull, same⟩
          · rcases max_choice start (limiter.bucketWait now bucket) with first | second
            · exact .inl (same.trans first)
            · exact .inr ⟨bucket, List.mem_cons_self .., full, same.trans second⟩
          · exact .inr ⟨other, List.mem_cons_of_mem _ after, isFull, same⟩
      · rw [if_neg full]
        obtain ⟨grown, waits, which⟩ := ih start
        refine ⟨grown, fun other member isFull => ?_, ?_⟩
        · rcases List.mem_cons.mp member with rfl | after
          · exact absurd isFull full
          · exact waits other after isFull
        · rcases which with same | ⟨other, after, isFull, same⟩
          · exact .inl same
          · exact .inr ⟨other, List.mem_cons_of_mem _ after, isFull, same⟩

/-- The answer is the longest wait of a bucket that is full, or 0. -/
theorem retryAfter_cases (enabled : limiter.enabled = true) (address : String) (now : ℚ) :
    (∀ bucket ∈ buckets address, limiter.Full now bucket →
        limiter.bucketWait now bucket ≤ limiter.retryAfter address now) ∧
      (limiter.retryAfter address now = 0 ∨
        ∃ bucket ∈ buckets address, limiter.Full now bucket ∧
          limiter.retryAfter address now = limiter.bucketWait now bucket) := by
  rw [retryAfter, if_pos enabled]
  exact (foldl_waits now (buckets address) 0).2

theorem retryAfter_eq_zero_iff (enabled : limiter.enabled = true) (address : String) (now : ℚ) :
    limiter.retryAfter address now = 0 ↔ ∀ bucket ∈ buckets address, ¬limiter.Full now bucket := by
  obtain ⟨waits, which⟩ := retryAfter_cases enabled address now
  constructor
  · intro zero bucket member full
    obtain ⟨_, _, -, -, positive, -⟩ :=
      bucketWait_of_full enabled (buckets_positive member) full
    have bound := waits bucket member full
    omega
  · intro none
    rcases which with zero | ⟨bucket, member, full, -⟩
    · exact zero
    · exact absurd full (none bucket member)

/-- The stamps of a full bucket are just as many as its budget. -/
theorem full_exactly {history : List ((String × Nat) × ℚ)} {now : ℚ}
    (tracks : Tracks limiter history now) {bucket : String × Nat}
    (factor : bucket.2 = bucketFactor bucket.1) {later : ℚ} (full : limiter.Full later bucket) :
    (recent limiter.window later (limiter.stamps bucket.1)).length = limiter.budget bucket.1 := by
  have few := (tracks.stamps bucket.1).2.2
  have fewer : (recent limiter.window later (limiter.stamps bucket.1)).length ≤
      (limiter.stamps bucket.1).length := recent_sublist.length_le
  unfold Full at full
  rw [budget, ← factor] at few ⊢
  omega

/-- A full bucket stays full until its first stamp leaves the window. -/
theorem full_later_iff {history : List ((String × Nat) × ℚ)} {now later : ℚ}
    (tracks : Tracks limiter history now) {bucket : String × Nat}
    (factor : bucket.2 = bucketFactor bucket.1) (full : limiter.Full now bucket)
    (enabled : limiter.enabled = true) (order : now ≤ later) {first : ℚ} {rest : List ℚ}
    (stamps : recent limiter.window now (limiter.stamps bucket.1) = first :: rest) :
    limiter.Full later bucket ↔ later - first < limiter.window := by
  have exactly := full_exactly tracks factor full
  have sorted : (recent limiter.window now (limiter.stamps bucket.1)).Pairwise (· ≤ ·) :=
    (tracks.stamps bucket.1).1.sublist recent_sublist
  have positive : 0 ≤ limiter.maxFailures * bucket.2 :=
    Int.mul_nonneg (of_decide_eq_true enabled : 0 < limiter.maxFailures).le (Int.natCast_nonneg _)
  rw [stamps] at exactly sorted
  rw [← SlidingWindow.full_iff sorted exactly, ← stamps, recent_recent order, Full, budget, ← factor]
  omega

theorem not_full_later {now later : ℚ} {bucket : String × Nat}
    (room : ¬limiter.Full now bucket) (order : now ≤ later) : ¬limiter.Full later bucket := by
  intro full
  apply room
  unfold Full at *
  have fewer : (recent limiter.window later (limiter.stamps bucket.1)).length ≤
      (recent limiter.window now (limiter.stamps bucket.1)).length := by
    rw [← recent_recent order]
    exact recent_sublist.length_le
  omega

/-- With no further failures, the wait suffices, and all but its last second is needed. -/
theorem wait_exactly {history : List ((String × Nat) × ℚ)} {now : ℚ}
    (tracks : Tracks limiter history now) (enabled : limiter.enabled = true) {address : String}
    (accepted : IsAddress address) (refused : limiter.retryAfter address now ≠ 0) :
    0 < limiter.retryAfter address now ∧
      limiter.retryAfter address (now + limiter.retryAfter address now) = 0 ∧
      ∀ seconds : Nat, (seconds : Int) < limiter.retryAfter address now - 1 →
        limiter.retryAfter address (now + seconds) ≠ 0 := by
  obtain ⟨waits, which⟩ := retryAfter_cases enabled address now
  obtain ⟨longest, member, full, same⟩ := which.resolve_left refused
  obtain ⟨first, rest, stamps, -, positive, -, below⟩ :=
    bucketWait_of_full enabled (buckets_positive member) full
  rw [← same] at positive below
  have later : now ≤ now + limiter.retryAfter address now := by
    have : (0 : ℚ) < (limiter.retryAfter address now : Int) := by exact_mod_cast positive
    linarith
  refine ⟨positive, ?_, fun seconds early => ?_⟩
  · rw [retryAfter_eq_zero_iff enabled]
    intro bucket among
    by_cases wasFull : limiter.Full now bucket
    · obtain ⟨first, rest, stamps, -, -, above, -⟩ :=
        bucketWait_of_full enabled (buckets_positive among) wasFull
      rw [full_later_iff tracks (buckets_factor accepted among) wasFull enabled later stamps]
      have bound : (limiter.bucketWait now bucket : ℚ) ≤ limiter.retryAfter address now := by
        exact_mod_cast waits bucket among wasFull
      linarith
    · exact not_full_later wasFull later
  · have order : now ≤ now + (seconds : ℚ) := le_add_of_nonneg_right (Nat.cast_nonneg seconds)
    intro zero
    refine (retryAfter_eq_zero_iff enabled address _).mp zero longest member ?_
    rw [full_later_iff tracks (buckets_factor accepted member) full enabled order stamps]
    have bound : (seconds : ℚ) < ((limiter.retryAfter address now - 1 : Int) : ℚ) := by
      exact_mod_cast early
    linarith

end Answers

/-! ## The whole limiter -/

theorem stampAll_size (limiter : FailedAuthLimiter) (fresh : limiter.failures = [])
    (history : List ((String × Nat) × ℚ)) :
    (limiter.stampAll history).failures.length ≤ limiter.maxTracked := by
  cases history using List.reverseRecOn with
  | nil =>
      change limiter.failures.length ≤ _
      rw [fresh]
      exact Nat.zero_le _
  | append_singleton history stamping =>
      rw [stampAll_append, ← (limiter.stampAll_settings history).2.2]
      exact evict_size _

theorem evictions_oldest (limiter : FailedAuthLimiter) (fresh : limiter.failures = [])
    {history : List ((String × Nat) × ℚ)} {stamping : (String × Nat) × ℚ}
    (proper : Proper (history ++ [stamping])) {eviction : BucketEntry × List BucketEntry}
    (member : eviction ∈ limiter.evictionsAt history stamping) :
    ∀ other ∈ eviction.2, FailedBefore (history ++ [stamping]) eviction.1.1 other.1 := by
  have tracks := limiter.tracks_stampAll fresh proper.of_append proper.past
  obtain ⟨-, -, ordered⟩ := tracks.stamped le_rfl
    (proper.factor stamping (List.mem_append_right _ (List.mem_singleton_self _)))
  have behind := ordered.sublist (eviction_suffix member).sublist
  exact (List.pairwise_cons.mp behind).1

/-- An enabled limiter equals its sliding window as long as nothing is evicted; its waits are
exact, its table is bounded, and it evicts the bucket that failed least recently. -/
theorem failed_auth_window (maxFailures : Int) (window : ℚ) (maxTracked : Nat)
    {calls : List AuthCall} (ordered : (calls.map AuthCall.now).Pairwise (· ≤ ·))
    (addresses : ∀ call ∈ calls, IsAddress call.address) :
    let limiter : FailedAuthLimiter := { maxFailures, window, maxTracked }
    (maxFailures ≤ 0 → ∀ address now, (limiter.run calls).retryAfter address now = 0) ∧
    (0 < maxFailures →
      (∀ address now, IsAddress address → (∀ call ∈ calls, call.now ≤ now) →
        (limiter.NoEviction calls →
          ((limiter.run calls).retryAfter address now = 0 ↔ ∀ bucket ∈ buckets address,
            (failuresWithin calls bucket.1 window now : Int) < maxFailures * bucket.2)) ∧
        ((limiter.run calls).retryAfter address now ≠ 0 →
          0 < (limiter.run calls).retryAfter address now ∧
          (limiter.run calls).retryAfter address
            (now + (limiter.run calls).retryAfter address now) = 0 ∧
          ∀ seconds : Nat, (seconds : Int) < (limiter.run calls).retryAfter address now - 1 →
            (limiter.run calls).retryAfter address (now + seconds) ≠ 0)) ∧
      (limiter.run calls).failures.length ≤ maxTracked ∧
      ∀ before stamping after, stampings calls = before ++ stamping :: after →
        (limiter.stampAll before).failures.length ≤ maxTracked ∧
        ∀ eviction ∈ limiter.evictionsAt before stamping, ∀ other ∈ eviction.2,
          FailedBefore (before ++ [stamping]) eviction.1.1 other.1) ∧
    (∀ first second firstIp secondIp, ipAddress first = some firstIp →
      ipAddress second = some secondIp → scopeId first = none → scopeId second = none →
      ((∃ key, (key, 1) ∈ buckets first ∧ (key, 1) ∈ buckets second) ↔
          SameClient firstIp secondIp) ∧
        ((∃ key, (key, prefix48Factor) ∈ buckets first ∧ (key, prefix48Factor) ∈ buckets second) ↔
          Same48 firstIp secondIp)) := by
  intro limiter
  have fresh : limiter.failures = [] := rfl
  have proper := stampings_proper ordered addresses
  refine ⟨fun disabled address now => ?_, fun positive => ?_, fun first second firstIp secondIp =>
    buckets_shared⟩
  · have off (calls : List AuthCall) : limiter.run calls = limiter := by
      induction calls with
      | nil => rfl
      | cons call rest ih =>
          have same : limiter.step call = limiter := by
            cases call with
            | retryAfter => rfl
            | recordFailure => exact if_neg (by simpa [enabled, limiter] using disabled)
          rw [run, List.foldl_cons, same]
          exact ih
    rw [off]
    exact if_neg (by simpa [enabled, limiter] using disabled)
  · have isEnabled : limiter.enabled = true := decide_eq_true positive
    obtain ⟨failures, width, tracked⟩ := limiter.stampAll_settings (stampings calls)
    have still : (limiter.stampAll (stampings calls)).enabled = true := by
      rw [enabled, failures]
      exact decide_eq_true positive
    rw [run_eq isEnabled]
    refine ⟨fun address now accepted past => ?_, ?_, fun before stamping after shape => ?_⟩
    · have earlier : ∀ stamping ∈ stampings calls, stamping.2 ≤ now := by
        intro stamping member
        obtain ⟨call, present, -, same⟩ := mem_stampings member
        exact same ▸ past call present
      have tracks := limiter.tracks_stampAll fresh proper earlier
      refine ⟨fun quiet => ?_, wait_exactly tracks still accepted⟩
      rw [retryAfter_eq_zero_iff still]
      refine forall₂_congr fun bucket member => ?_
      have counts := (limiter.counts_stampAll fresh proper earlier quiet bucket.1).full_iff le_rfl
      have factor := buckets_factor accepted member
      have history : ∀ stamp ∈ bucketFailures calls bucket.1, stamp ≤ now := by
        intro stamp inside
        rw [← stampsOf_stampings] at inside
        obtain ⟨stamping, selected, rfl⟩ := List.mem_map.mp inside
        exact earlier stamping (List.mem_of_mem_filter selected)
      have budget : 0 ≤ maxFailures * bucket.2 := Int.mul_nonneg positive.le (Int.natCast_nonneg _)
      have within : recent limiter.window now (bucketFailures calls bucket.1) =
          (bucketFailures calls bucket.1).filter fun stamp => now - window < stamp ∧ stamp ≤ now :=
        recent_eq_within history
      rw [stampsOf_stampings, within, FailedAuthLimiter.budget, ← factor] at counts
      rw [Full, failures, width, failuresWithin]
      change ¬maxFailures * bucket.2 ≤ _ ↔ _
      change (maxFailures * bucket.2).toNat ≤ _ ↔ (maxFailures * bucket.2).toNat ≤ _ at counts
      omega
    · exact stampAll_size limiter fresh (stampings calls)
    · rw [shape, List.append_cons] at proper
      exact ⟨stampAll_size limiter fresh before,
        fun eviction member => evictions_oldest limiter fresh proper.of_append member⟩

/-- With no failures allowed the limiter is off: it admits a client whose budget is 0. -/
theorem disabled_limiter_admits :
    let limiter : FailedAuthLimiter := { maxFailures := 0 }
    limiter.NoEviction [] ∧ (limiter.run []).retryAfter "192.0.2.1" 0 = 0 ∧
      ∃ bucket ∈ buckets "192.0.2.1",
        ¬(failuresWithin [] bucket.1 60 0 : Int) < limiter.maxFailures * bucket.2 := by
  refine ⟨fun before stamping after shape => ?_, by decide +kernel,
    ("192.0.2.1", 1), by decide +kernel, by decide +kernel⟩
  cases before <;> cases shape

def sampleFailures : List AuthCall :=
  [.recordFailure "8.8.8.8" 0, .recordFailure "8.8.8.8" 1, .recordFailure "2001:db8::1" 1]

/-- After two failures in a minute, a third attempt waits until the first has left the window. -/
theorem failed_auth_window_sampleFailures :
    let limiter : FailedAuthLimiter := { maxFailures := 2, window := 60, maxTracked := 100 }
    (limiter.run sampleFailures).retryAfter "8.8.8.8" 2 = 59 ∧
      (limiter.run sampleFailures).retryAfter "8.8.8.8" (2 + (59 : Int)) = 0 := by
  intro limiter
  have ordered : (sampleFailures.map AuthCall.now).Pairwise (· ≤ ·) := by decide +kernel
  have addresses : ∀ call ∈ sampleFailures, IsAddress call.address := by decide +kernel
  have answer : (limiter.run sampleFailures).retryAfter "8.8.8.8" 2 = 59 := by decide +kernel
  obtain ⟨-, window, -⟩ := failed_auth_window 2 60 100 ordered addresses
  obtain ⟨-, waits⟩ := (window (by decide)).1 "8.8.8.8" 2 (by decide +kernel) (by decide +kernel)
  have admitted := (waits (by rw [answer]; decide)).2.1
  rw [answer] at admitted
  exact ⟨answer, admitted⟩

end FailedAuthLimiter

end CustomDomain
