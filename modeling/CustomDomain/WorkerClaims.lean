import CustomDomain.ClaimFlow

/-!
# Observations and claims

A worker observes outside any transaction and through a session whose objects
can be stale, while claims are re-issued and domains deleted.  `Traced` is the
invariant: the claim in a worker's session is still the live one or its token is
spent for good, every observation a run holds was made while its claim was live
unless that claim is dead by now, and whatever is stored as verified or decided
goes back to an observation made while the claim it is stored for was live.
-/

namespace CustomDomain.Checks

open Transaction PythonText

/-- The text a claim asks for, from its token. -/
def challenge (token : String) : String := "custom-domain-verify=" ++ token

/-- A TXT query, made while the claim was live, returned the claim's own
token. -/
def ProvenBy (trail : List Sighting) (domainId : Uuid) (found : ClaimVersion) : Prop :=
  ∃ sighting ∈ trail, sighting.checkType = .ownership ∧ sighting.domainId = domainId ∧
    sighting.live = some found ∧ ∃ value ∈ sighting.values, strip value = challenge found.2.1

/-- A probe was made while the claim was live. -/
def ProbedBy (trail : List Sighting) (domainId : Uuid) (checkType : CheckType)
    (found : Option ClaimVersion) : Prop :=
  ∃ sighting ∈ trail, sighting.checkType = checkType ∧ sighting.domainId = domainId ∧
    sighting.live = found

section Trails

variable {trail longer : List Sighting} {domainId : Uuid}

theorem ProvenBy.mono {found : ClaimVersion} (proven : ProvenBy trail domainId found)
    (extends_ : trail ⊆ longer) : ProvenBy longer domainId found := by
  obtain ⟨sighting, member, rest⟩ := proven
  exact ⟨sighting, extends_ member, rest⟩

theorem ProbedBy.mono {checkType : CheckType} {found : Option ClaimVersion}
    (probed : ProbedBy trail domainId checkType found) (extends_ : trail ⊆ longer) :
    ProbedBy longer domainId checkType found := by
  obtain ⟨sighting, member, rest⟩ := probed
  exact ⟨sighting, extends_ member, rest⟩

end Trails

/-- The run a worker is in, once it has loaded the domain. -/
def Phase.run? : Phase → Option Run
  | .querying run | .owned run _ | .queried run _ _ _ | .between run | .probing run _
  | .certified run _ _ | .probed run _ _ => some run
  | _ => none

section Invariant

variable {ι : Type}

/-- The claim is live for the domain. -/
def Lives (db : Database) (domainId : Uuid) (found : ClaimVersion) : Prop :=
  ∃ row ∈ db.domains, row.id = domainId ∧ claimVersion row = some found

/-- The claim's token was issued and belongs to no live claim. -/
def Dead (state : State ι) (found : ClaimVersion) : Prop :=
  found.2.1 ∈ state.issued ∧
    ∀ domainId other, Lives state.db domainId other → other.2.1 ≠ found.2.1

/-- The claim in the worker's session is the live one, or dead, and its
observations were made while it was live, unless it is dead. -/
structure Follows (state : State ι) (run : Run) : Prop where
  claim : ∃ found, claimVersion run.loaded.domain = some found ∧
    (Lives state.db run.domainId found ∨ Dead state found)
  seen : ∀ sighting ∈ run.seen, sighting ∈ state.trail ∧ sighting.domainId = run.domainId ∧
    sighting.asked = claimVersion run.loaded.domain ∧
    (sighting.live = sighting.asked ∨ ∃ found, sighting.asked = some found ∧ Dead state found)

/-- The run has observed each of these checks. -/
def Run.Saw (run : Run) (types : List CheckType) : Prop :=
  ∀ checkType ∈ types, ∃ sighting ∈ run.seen, sighting.checkType = checkType

/-- A passing outcome rests on a TXT query that returned the token asked for. -/
def Run.Proves (run : Run) (ownership : Outcome) : Prop :=
  ownership.passing = true → ∃ sighting ∈ run.seen, sighting.checkType = .ownership ∧
    ∃ found, sighting.asked = some found ∧
      ∃ value ∈ sighting.values, strip value = challenge found.2.1

/-- The run has made the observations its phase stands for. -/
def Phase.Observed : Phase → Prop
  | .owned run ownership => run.Saw [.ownership] ∧ run.Proves ownership
  | .queried run ownership _ _ => run.Saw dnsCheckTypes ∧ run.Proves ownership
  | .certified run _ _ => run.Saw [.certificate]
  | .probed run _ _ => run.Saw edgeCheckTypes
  | _ => True

structure Traced (state : State ι) : Prop where
  issued : ∀ token ∈ tokens state.db, token ∈ state.issued
  unique : UniqueTokens state.db
  runs : ∀ worker, ∀ run ∈ (state.workers worker).run?, Follows state run
  observed : ∀ worker, (state.workers worker).Observed
  verified : ∀ row ∈ state.db.domains, ∀ claim ∈ row.claims,
    claim.verificationMethod = some .dnsTxt → ProvenBy state.trail row.id (version claim)
  checked : ∀ row ∈ state.db.domains, row.isLive = true → ∀ check ∈ row.checks,
    check.checkType ∈ edgeCheckTypes → check.status ≠ .pending →
      ProbedBy state.trail row.id check.checkType (claimVersion row)

end Invariant

/-! ## Liveness of claims -/

section Liveness

variable {environment : Environment} {db : Database} (consistent : db.Consistent environment)

theorem exists_of_claimVersion {domain : Domain} {found : ClaimVersion}
    (lives : claimVersion domain = some found) :
    ∃ claim ∈ domain.claims, version claim = found := by
  rw [claimVersion_eq, Option.map_eq_some_iff] at lives
  obtain ⟨claim, active, same⟩ := lives
  exact ⟨claim, List.mem_of_find?_eq_some active, same⟩

theorem Lives.mem_tokens {domainId : Uuid} {found : ClaimVersion}
    (lives : Lives db domainId found) : found.2.1 ∈ tokens db := by
  obtain ⟨row, member, -, version⟩ := lives
  obtain ⟨claim, inside, rfl⟩ := exists_of_claimVersion version
  exact Checks.mem_tokens member inside

include consistent

theorem Lives.liveClaim {domainId : Uuid} {found : ClaimVersion}
    (lives : Lives db domainId found) : liveClaim db domainId = some found := by
  obtain ⟨row, member, rfl, version⟩ := lives
  rw [Checks.liveClaim, consistent.keyed.domain?_eq member]
  exact version

/-- Two live claims with the same token are the same claim. -/
theorem Lives.unique (unique : UniqueTokens db) {first second : Uuid}
    {found other : ClaimVersion} (left : Lives db first found) (right : Lives db second other)
    (same : found.2.1 = other.2.1) : first = second ∧ found = other := by
  obtain ⟨row, member, rfl, leftVersion⟩ := left
  obtain ⟨row', member', rfl, rightVersion⟩ := right
  obtain ⟨claim, inside, rfl⟩ := exists_of_claimVersion leftVersion
  obtain ⟨claim', inside', rfl⟩ := exists_of_claimVersion rightVersion
  have id := (unique row member row' member' claim inside claim' inside' same).1
  have rows : row = row' := List.inj_on_of_nodup_map consistent.keyed member member' id
  refine ⟨id, ?_⟩
  rw [rows] at leftVersion
  exact Option.some.inj (leftVersion.symm.trans rightVersion)

end Liveness

/-! ## One step onward -/

section Onward

variable {ι : Type} {environment : Environment} {state after : State ι}

/-- What every step has in common. -/
structure Onward (state after : State ι) : Prop where
  flow : Flow (ProvenBy after.trail) (ProbedBy after.trail) state.db after.db
  fresh : ∀ token ∈ tokens after.db, token ∈ tokens state.db ∨ token ∉ state.issued
  trail : state.trail ⊆ after.trail
  issued : state.issued ⊆ after.issued
  known : ∀ token ∈ tokens after.db, token ∈ after.issued

/-- A live claim was live before, or its token was never issued. -/
theorem Onward.lives (onward : Onward state after) {domainId : Uuid} {found : ClaimVersion}
    (lives : Lives after.db domainId found) :
    Lives state.db domainId found ∨
      (found.2.1 ∉ tokens state.db ∧ found.2.1 ∉ state.issued) := by
  have issued := onward.fresh _ lives.mem_tokens
  obtain ⟨row, member, rfl, version⟩ := lives
  rcases onward.flow.live row member found version with ⟨old, stored, id, lives⟩ | new
  · exact .inl ⟨old, stored, id, lives⟩
  · exact .inr ⟨new, issued.resolve_left new⟩

/-- The dead stay dead. -/
theorem Onward.dead (onward : Onward state after) {found : ClaimVersion}
    (dead : Dead state found) : Dead after found := by
  refine ⟨onward.issued dead.1, fun domainId other lives same => ?_⟩
  rcases onward.lives lives with old | ⟨-, new⟩
  · exact dead.2 domainId other old same
  · exact new (same ▸ dead.1)

variable (consistent : state.db.Consistent environment) (traced : Traced state)

include consistent traced

/-- A claim that is live stays live, or is dead from now on. -/
theorem Onward.livesOrDead (onward : Onward state after) {domainId : Uuid} {found : ClaimVersion}
    (lives : Lives state.db domainId found) :
    Lives after.db domainId found ∨ Dead after found := by
  by_cases still : Lives after.db domainId found
  · exact .inl still
  · refine .inr ⟨onward.issued (traced.issued _ lives.mem_tokens), fun other next lives' same => ?_⟩
    rcases onward.lives lives' with old | ⟨new, -⟩
    · obtain ⟨rfl, rfl⟩ := old.unique consistent traced.unique lives same
      exact still lives'
    · exact new (same ▸ lives.mem_tokens)

theorem Onward.follows (onward : Onward state after) {run : Run} (follows : Follows state run) :
    Follows after run := by
  refine ⟨?_, ?_⟩
  · obtain ⟨found, version, lives | dead⟩ := follows.claim
    · exact ⟨found, version, onward.livesOrDead consistent traced lives⟩
    · exact ⟨found, version, .inr (onward.dead dead)⟩
  · intro sighting member
    obtain ⟨inTrail, domainId, asked, own | ⟨found, same, dead⟩⟩ := follows.seen sighting member
    · exact ⟨onward.trail inTrail, domainId, asked, .inl own⟩
    · exact ⟨onward.trail inTrail, domainId, asked, .inr ⟨found, same, onward.dead dead⟩⟩

/-- The invariant after a step, from what the step does to the workers. -/
theorem Onward.keepsTraced (onward : Onward state after)
    (runs : ∀ worker, ∀ run ∈ (after.workers worker).run?,
      (state.workers worker).run? = some run ∨ Follows after run)
    (observed : ∀ worker, (after.workers worker).Observed) : Traced after where
  issued := onward.known
  unique := onward.flow.unique traced.unique
  runs worker run running := by
    rcases runs worker run running with old | new
    · exact onward.follows consistent traced (traced.runs worker run old)
    · exact new
  observed := observed
  verified row member claim inside method := by
    rcases onward.flow.claims row member claim inside with
      ⟨old, stored, id, before, present, same, verified⟩ | ⟨-, proven⟩
    · rcases verified method with earlier | proven
      · rw [← id, ← same]
        exact (traced.verified old stored before present earlier).mono onward.trail
      · exact proven
    · exact proven method
  checked row member live check inside typed decided := by
    rcases onward.flow.checks row member live check inside typed decided with
      ⟨old, stored, id, oldLive, same, before, present, sameType, oldDecided⟩ | probed
    · rw [← sameType] at typed
      rw [← id, ← same, ← sameType]
      exact (traced.checked old stored oldLive before present typed oldDecided).mono onward.trail
    · exact probed

variable [DecidableEq ι]

/-- A worker moves on. -/
theorem Traced.advance {worker : ι} {phase : Phase} {rows : Database} {seen : List Sighting}
    (onward : Onward state (state.advance worker phase rows seen))
    (own : ∀ run ∈ phase.run?, Follows (state.advance worker phase rows seen) run)
    (observed : phase.Observed) : Traced (state.advance worker phase rows seen) := by
  refine onward.keepsTraced consistent traced ?_ ?_
  · intro other run running
    simp only [State.advance, Function.update_apply] at running
    split_ifs at running
    · exact .inr (own run running)
    · exact .inl running
  · intro other
    simp only [State.advance, Function.update_apply]
    split_ifs
    · exact observed
    · exact traced.observed other

omit consistent in
/-- A worker moves on without committing rows. -/
theorem Traced.onward_quiet (worker : ι) (phase : Phase) (seen : List Sighting) :
    Onward state (state.advance worker phase state.db seen) :=
  ⟨(Flow.of_same rfl).2, fun _ stored => .inl stored, List.subset_append_left _ _,
    List.Subset.refl _, traced.issued⟩

omit consistent in
/-- A worker moves on and commits one domain, with the claims it has. -/
theorem Traced.onward_commits (keyed : state.db.Keyed) {worker : ι} {phase : Phase}
    {domain next : Domain} {rows : Database} (member : domain ∈ state.db.domains)
    (alike : domain.Alike next)
    (row : RowFlow (· ∉ tokens state.db) (ProvenBy state.trail domain.id)
      (fun checkType => ProbedBy state.trail domain.id checkType (claimVersion domain)) domain next)
    (holds : Holds state.db next rows) : Onward state (state.advance worker phase rows []) := by
  have same : (state.advance worker phase rows []).trail = state.trail := List.append_nil _
  have known : ∀ token ∈ tokens rows, token ∈ tokens state.db := by
    intro token seen
    obtain ⟨stored, present, claim, inside, rfl⟩ := exists_of_mem_tokens seen
    rw [holds.domains] at present
    obtain ⟨before, stored', rfl⟩ := List.mem_map.mp present
    split at inside
    next =>
      obtain ⟨old, oldIn, version⟩ := exists_version alike.symm claim inside
      rw [← show old.token = claim.token from congrArg (·.2.1) version]
      exact mem_tokens member oldIn
    next => exact mem_tokens stored' inside
  refine ⟨?_, fun token seen => .inl (known token seen), by rw [same]; exact fun _ => id,
    List.Subset.refl _, fun token seen => traced.issued token (known token seen)⟩
  rw [same]
  exact (Flow.of_holds keyed member row holds).2

end Onward

/-! ## Every step keeps the invariant -/

section Steps

variable {ι : Type} {environment : Environment} {state after : State ι}

/-- A run whose claim is the stored domain's has seen what it saw while that
claim was live. -/
theorem Follows.own {run : Run} (follows : Follows state run) {domain : Domain}
    (member : domain ∈ state.db.domains)
    (own : claimVersion domain = claimVersion run.loaded.domain) :
    ∀ sighting ∈ run.seen, sighting.asked = claimVersion domain ∧
      sighting.live = claimVersion domain := by
  intro sighting inside
  obtain ⟨-, -, asked, live | ⟨found, same, dead⟩⟩ := follows.seen sighting inside
  · exact ⟨asked.trans own.symm, (live.trans asked).trans own.symm⟩
  · have lives : claimVersion domain = some found := own.trans (asked.symm.trans same)
    exact absurd rfl (dead.2 domain.id found ⟨domain, member, rfl, lives⟩)

theorem ownershipOutcome_passing {resolver : Resolver} {domain : Domain}
    (passing : (ownershipOutcome resolver domain).passing = true) :
    ∃ claim, domain.activeClaim = some claim ∧
      ∃ value ∈ txtValues resolver domain, strip value = challenge claim.token := by
  unfold ownershipOutcome at passing
  unfold txtValues
  cases active : domain.activeClaim with
  | none => simp [active, claimRevokedOutcome, Outcome.passing] at passing
  | some claim =>
      refine ⟨claim, rfl, ?_⟩
      cases answer : resolver.txt claim.txtRecordName with
      | error failure => cases failure <;> simp [active, answer, Outcome.passing] at passing
      | ok values =>
          simp only [active, answer] at passing ⊢
          cases values with
          | nil => simp [Outcome.passing] at passing
          | cons first rest =>
              simp only at passing
              split_ifs at passing with own stale
              · obtain ⟨value, inside, same⟩ := List.any_eq_true.mp own
                exact ⟨value, inside, eq_of_beq same⟩
              · simp [Outcome.passing] at passing
              · simp [Outcome.passing] at passing

/-- A run that made one more observation has seen that too. -/
theorem Run.Saw.saw {run : Run} {types : List CheckType} (saw : run.Saw types)
    (sighting : Sighting) : (run.saw sighting).Saw (types ++ [sighting.checkType]) := by
  intro checkType typed
  rcases List.mem_append.mp typed with old | new
  · obtain ⟨seen, inside, same⟩ := saw checkType old
    exact ⟨seen, List.mem_append_left _ inside, same⟩
  · exact ⟨sighting, List.mem_append_right _ (List.mem_singleton_self _),
      (List.mem_singleton.mp new).symm⟩

theorem Run.saw_nothing (run : Run) : run.Saw [] := by
  simp [Run.Saw]

/-- The rows and the observations of a run after it made another one. -/
theorem Follows.saw (consistent : state.db.Consistent environment) {run : Run}
    (follows : Follows state run) (checkType : CheckType) (values : List String)
    (after : State ι) (db : after.db = state.db) (issued : after.issued = state.issued)
    (trail : after.trail = state.trail ++ [run.sighting state.db checkType values]) :
    Follows after (run.saw (run.sighting state.db checkType values)) := by
  have dead : ∀ {found : ClaimVersion}, Dead state found → Dead after found := by
    intro found dead
    unfold Dead at *
    rw [db, issued]
    exact dead
  refine ⟨?_, ?_⟩
  · obtain ⟨found, version, lives | gone⟩ := follows.claim
    · exact ⟨found, version, .inl (by rw [db]; exact lives)⟩
    · exact ⟨found, version, .inr (dead gone)⟩
  · intro sighting member
    rw [trail]
    rcases List.mem_append.mp member with old | new
    · obtain ⟨inTrail, domainId, asked, own | ⟨found, same, gone⟩⟩ := follows.seen sighting old
      · exact ⟨List.mem_append_left _ inTrail, domainId, asked, .inl own⟩
      · exact ⟨List.mem_append_left _ inTrail, domainId, asked, .inr ⟨found, same, dead gone⟩⟩
    · rw [List.mem_singleton.mp new]
      refine ⟨List.mem_append_right _ (List.mem_singleton_self _), rfl, rfl, ?_⟩
      obtain ⟨found, version, lives | gone⟩ := follows.claim
      · refine .inl ?_
        rw [Run.sighting, lives.liveClaim consistent]
        exact version.symm
      · exact .inr ⟨found, version, dead gone⟩

/-- A domain that was loaded has its claim live. -/
theorem Follows.begins (consistent : state.db.Consistent environment) {run : Run}
    (loads : state.db.Loads run.domainId run.loaded.domain) (unseen : run.seen = []) :
    Follows state run := by
  obtain ⟨claim, -, active⟩ := (consistent.sound _ loads.1).activeClaim loads.2.2.1
  refine ⟨⟨version claim, by rw [claimVersion_eq, active]; rfl, .inl ?_⟩, by simp [unseen]⟩
  exact ⟨_, loads.1, loads.2.1, by rw [claimVersion_eq, active]; rfl⟩

variable [DecidableEq ι]

section Traced

variable (consistent : state.db.Consistent environment) (traced : Traced state)

include consistent traced

/-- One observation. -/
theorem Traced.observes {worker : ι} {run : Run} {checkType : CheckType} {values : List String}
    {next : Run → Phase} (follows : Follows state run) (runs : ∀ run, (next run).run? = some run)
    (observed : (next (run.saw (run.sighting state.db checkType values))).Observed) :
    Traced (state.observe worker run checkType values next) := by
  refine traced.advance consistent (traced.onward_quiet worker _ _) ?_ observed
  intro after running
  rw [runs, Option.mem_some_iff] at running
  subst running
  exact follows.saw consistent checkType values _ rfl rfl rfl

/-- A worker reschedules checks and is done, or has leased them. -/
theorem Traced.reschedules {worker : ι} {phase : Phase} {domain next : Domain} {rows : Database}
    (member : domain ∈ state.db.domains) (same : domain.Rescheduled next)
    (holds : Holds state.db next rows) (loaded : phase.run? = none) (observed : phase.Observed) :
    Traced (state.advance worker phase rows []) := by
  refine traced.advance consistent (traced.onward_commits consistent.keyed member same.alike
    (.rescheduled same) holds) ?_ observed
  intro run running
  rw [loaded] at running
  cases running

theorem Traced.appliesDns {worker : ι} {run : Run} {ownership routing : Outcome}
    {zone : Option String} {domain value : Domain} {edgeDue : Bool} {rows : Database}
    (held : state.workers worker = .queried run ownership routing zone)
    (loads : state.db.Loads run.domainId domain)
    (own : claimVersion domain = claimVersion run.loaded.domain)
    (result : value = (domain.dnsApplied ownership routing state.clock).zoned zone state.clock)
    (holds : Holds state.db (value.edgeLeased run.statusBefore run.edgeDue state.clock) rows)
    (application : Option Application) :
    Traced (state.advance worker (.between (run.applied ⟨value, application⟩ edgeDue)) rows []) := by
  have follows := traced.runs worker run (by rw [held]; rfl)
  have observed := traced.observed worker
  rw [held] at observed
  have sound := consistent.sound domain loads.1
  have zoned := (domain.dnsApplied ownership routing state.clock).zoned_rescheduled zone state.clock
  rw [← result] at zoned
  have leased := value.edgeLeased_rescheduled run.statusBefore run.edgeDue state.clock
  have same := zoned.trans leased
  have alike := (domain.dnsApplied_alike ownership routing state.clock).trans same.alike
  have row : RowFlow (· ∉ tokens state.db) (ProvenBy state.trail domain.id)
      (fun checkType => ProbedBy state.trail domain.id checkType (claimVersion domain)) domain
      (value.edgeLeased run.statusBefore run.edgeDue state.clock) := by
    refine ((RowFlow.dns sound loads.2.2.1 ownership routing state.clock).thenRescheduled
      same).weaken ?_ fun _ probed => probed
    rintro found ⟨passing, lives⟩
    obtain ⟨sighting, inside, isTxt, asked, isAsked, value, shown, matches_⟩ := observed.2 passing
    obtain ⟨inTrail, domainId, -, -⟩ := follows.seen sighting inside
    obtain ⟨ownAsked, ownLive⟩ := follows.own loads.1 own sighting inside
    have isFound : asked = found :=
      Option.some.inj ((isAsked.symm.trans ownAsked).trans lives)
    rw [isFound] at matches_
    exact ⟨sighting, inTrail, isTxt, domainId.trans loads.2.1.symm, ownLive.trans lives, value,
      shown, matches_⟩
  refine traced.advance consistent (traced.onward_commits consistent.keyed loads.1 alike row holds)
    ?_ trivial
  rintro _ ⟨⟩
  -- The claim in the session is the one just committed.
  obtain ⟨claim, -, active⟩ := sound.activeClaim loads.2.2.1
  have stored : claimVersion (value.edgeLeased run.statusBefore run.edgeDue state.clock) =
      some (version claim) := by
    rw [claimVersion_eq, same.activeClaim, ← claimVersion_eq,
      dnsApplied_claimVersion sound loads.2.2.1, claimVersion_eq, active]
    rfl
  have session : claimVersion value = some (version claim) := by
    rw [claimVersion_eq, ← leased.activeClaim, ← claimVersion_eq]
    exact stored
  refine ⟨⟨version claim, session, .inl ⟨_, holds.mem, alike.id.trans loads.2.1, stored⟩⟩, ?_⟩
  intro sighting inside
  cases inside

theorem Traced.appliesEdge {worker : ι} {run : Run} {certificate origin : Outcome}
    {domain : Domain} {rows : Database}
    (held : state.workers worker = .probed run certificate origin)
    (loads : state.db.Loads run.domainId domain)
    (own : claimVersion domain = claimVersion run.loaded.domain)
    (holds : Holds state.db (domain.edgeApplied certificate origin state.clock) rows) :
    Traced (state.advance worker .idle rows []) := by
  have follows := traced.runs worker run (by rw [held]; rfl)
  have observed := traced.observed worker
  rw [held] at observed
  refine traced.advance consistent (traced.onward_commits consistent.keyed loads.1
    (domain.edgeApplied_kept certificate origin state.clock).alike ?_ holds)
    (by rintro _ ⟨⟩) trivial
  refine (RowFlow.edge domain certificate origin state.clock).weaken (fun _ never => never) ?_
  intro checkType typed
  obtain ⟨sighting, inside, isType⟩ := observed checkType typed
  obtain ⟨inTrail, domainId, -, -⟩ := follows.seen sighting inside
  exact ⟨sighting, inTrail, isType, domainId.trans loads.2.1.symm,
    (follows.own loads.1 own sighting inside).2⟩

/-- Every step keeps the invariant. -/
theorem Traced.step {action : Action ι} (moves : Moves environment state action after) :
    Traced after := by
  have quiet : ∀ {worker : ι} {phase : Phase}, phase.run? = none → phase.Observed →
      Traced (state.advance worker phase state.db []) := by
    intro worker phase idle observed
    refine traced.advance consistent (traced.onward_quiet worker phase []) ?_ observed
    intro run running
    rw [idle] at running
    cases running
  have follows : ∀ {worker : ι} {phase : Phase} {run : Run}, state.workers worker = phase →
      phase.run? = some run → Follows state run := by
    rintro worker phase run rfl running
    exact traced.runs worker run running
  cases moves with
  | tick later => exact ⟨traced.issued, traced.unique,
      fun worker run running =>
        ⟨(traced.runs worker run running).claim, (traced.runs worker run running).seen⟩,
      traced.observed, traced.verified, traced.checked⟩
  | begin held => exact quiet rfl trivial
  | choose held => exact quiet rfl trivial
  | lease held member holds =>
      exact traced.reschedules consistent member (Domain.scheduled_rescheduled _ _ _) holds rfl
        trivial
  | @loadDns worker domainId now types loaded held loads due =>
      refine traced.advance consistent (traced.onward_quiet _ _ []) ?_ trivial
      rintro _ ⟨⟩
      have begins : Follows state (beginRun domainId now types loaded) :=
        .begins consistent loads rfl
      exact (traced.onward_quiet _ _ []).follows consistent traced begins
  | @loadEdge worker domainId now types loaded held loads =>
      refine traced.advance consistent (traced.onward_quiet _ _ []) ?_ trivial
      rintro _ ⟨⟩
      have begins : Follows state (beginRun domainId now types loaded) :=
        .begins consistent loads rfl
      exact (traced.onward_quiet _ _ []).follows consistent traced begins
  | @queryOwnership worker resolver run held =>
      refine traced.observes consistent (follows held rfl) (fun _ => rfl) ⟨?_, ?_⟩
      · exact run.saw_nothing.saw _
      · intro passing
        obtain ⟨claim, active, value, shown, same⟩ := ownershipOutcome_passing passing
        refine ⟨_, List.mem_append_right _ (List.mem_singleton_self _), rfl, version claim, ?_, value,
          shown, same⟩
        rw [Run.sighting, claimVersion_eq, active]
        rfl
  | @queryRouting worker resolver zone run ownership held =>
      have observed := traced.observed worker
      rw [held] at observed
      refine traced.observes consistent (follows held rfl) (fun _ => rfl) ⟨?_, ?_⟩
      · exact observed.1.saw _
      · intro passing
        obtain ⟨sighting, inside, rest⟩ := observed.2 passing
        exact ⟨sighting, List.mem_append_left _ inside, rest⟩
  | discardDns held loads holds =>
      exact traced.reschedules consistent loads.1 (Domain.scheduled_rescheduled _ _ _) holds rfl
        trivial
  | applyDns held loads own result due holds =>
      exact traced.appliesDns consistent held loads own result holds _
  | reload held due =>
      refine traced.advance consistent (traced.onward_quiet _ _ []) ?_ trivial
      rintro _ ⟨⟩
      exact (traced.onward_quiet _ _ []).follows consistent traced (follows held rfl)
  | @probeCertificate worker prober run serving held =>
      refine traced.observes consistent (follows held rfl) (fun _ => rfl) ?_
      exact run.saw_nothing.saw (run.sighting state.db .certificate [])
  | @probeOrigin worker prober run serving certificate held =>
      have observed := traced.observed worker
      rw [held] at observed
      refine traced.observes consistent (follows held rfl) (fun _ => rfl) ?_
      exact Run.Saw.saw observed (run.sighting state.db .origin [])
  | applyEdge held loads own holds => exact traced.appliesEdge consistent held loads own holds
  | stop worker => exact quiet rfl trivial
  | @service op external unused =>
      have onward : Onward state { state with
          db := op.run environment state.db
          issued := state.issued ++ tokens (op.run environment state.db) } :=
        ⟨external_flow consistent external, unused, List.Subset.refl _,
          List.subset_append_left _ _, fun _ seen => List.mem_append_right _ seen⟩
      exact onward.keepsTraced consistent traced (fun _ _ running => .inl running) traced.observed

end Traced

end Steps

/-! ## What a worker writes -/

/-- A check, but for when it is due next. -/
def undated (check : DomainCheck) : DomainCheck := { check with nextCheckAt := none }

/-- Something of these checks was written, other than when they are due. -/
def Writes (types : List CheckType) (row next : Domain) : Prop :=
  ∃ check ∈ next.checks, check.checkType ∈ types ∧
    ∀ before ∈ row.checks, undated check ≠ undated before

/-- The run observed these checks of the domain for its live claim and while that
was live, and the domain is not deleted. -/
structure Run.Owns (run : Run) (types : List CheckType) (row : Domain) : Prop where
  domainId : run.domainId = row.id
  live : row.isLive = true
  saw : run.Saw types
  own : ∃ found, claimVersion row = some found ∧ ∀ sighting ∈ run.seen,
    sighting.domainId = row.id ∧ sighting.asked = some found ∧ sighting.live = some found

section Written

variable {types : List CheckType} {row middle next : Domain}

theorem not_writes_self (types : List CheckType) (row : Domain) : ¬ Writes types row row := by
  rintro ⟨check, member, -, fresh⟩
  exact fresh check member rfl

theorem Writes.of_trans (writes : Writes types row next) (quiet : ¬ Writes types row middle) :
    Writes types middle next := by
  obtain ⟨check, member, typed, fresh⟩ := writes
  refine ⟨check, member, typed, fun before present same => ?_⟩
  have sameType : check.checkType = before.checkType := congrArg (·.checkType) same
  refine quiet ⟨before, present, sameType ▸ typed, fun old stored eq => ?_⟩
  exact fresh old stored (same.trans eq)

theorem not_writes_scheduled (types : List CheckType) (row : Domain)
    (selects : DomainCheck → Bool) (at_ : Time) : ¬ Writes types row (row.scheduled selects at_) := by
  rintro ⟨check, member, -, fresh⟩
  rw [Domain.scheduled] at member
  obtain ⟨before, present, rfl⟩ := List.mem_map.mp member
  refine fresh before present ?_
  split <;> rfl

theorem not_writes_zoned (types : List CheckType) (row : Domain) (zone : Option String)
    (now : Time) : ¬ Writes types row (row.zoned zone now) := by
  unfold Domain.zoned
  split
  next => exact not_writes_self types row
  next => exact not_writes_self types row

theorem not_writes_edgeLeased (types : List CheckType) (row : Domain)
    (statusBefore : DomainStatus) (edgeDue : Bool) (now : Time) :
    ¬ Writes types row (row.edgeLeased statusBefore edgeDue now) := by
  unfold Domain.edgeLeased
  split
  next => exact not_writes_scheduled types row _ _
  next => exact not_writes_self types row

theorem not_writes_sameChecks (same : row.SameChecks types next) : ¬ Writes types row next := by
  rintro ⟨check, member, typed, fresh⟩
  exact fresh check (same check member typed) rfl

/-- The row of a domain after another one was replaced, or it was. -/
theorem replaced_of_id {base db : Database} {value : Domain} (keyed : base.Keyed)
    (holds : Holds base value db) (member : row ∈ base.domains) (stored : next ∈ db.domains)
    (id : next.id = row.id) : (row.id = value.id ∧ next = value) ∨ next = row := by
  rw [holds.domains] at stored
  obtain ⟨before, present, rfl⟩ := List.mem_map.mp stored
  split at id
  next same =>
    rw [if_pos same]
    exact .inl ⟨id.symm, rfl⟩
  next different =>
    rw [if_neg different]
    exact .inr (List.inj_on_of_nodup_map keyed present member id)

end Written

section Rightful

variable {ι : Type} {environment : Environment} {state after : State ι}

/-- The step commits DNS outcomes that were observed for the domain's claim. -/
def CommitsDns (state : State ι) (action : Action ι) (row : Domain) : Prop :=
  ∃ worker run ownership routing zone, action = .applyDns worker ∧
    state.workers worker = .queried run ownership routing zone ∧ run.Owns dnsCheckTypes row

/-- The step commits edge outcomes that were observed for the domain's claim. -/
def CommitsEdge (state : State ι) (action : Action ι) (row : Domain) : Prop :=
  ∃ worker run certificate origin, action = .applyEdge worker ∧
    state.workers worker = .probed run certificate origin ∧ run.Owns edgeCheckTypes row

/-- What a worker's step does to a domain rests on observations for its claim. -/
structure Rightful (state after : State ι) (action : Action ι) (row next : Domain) : Prop where
  claim : claimVersion next = claimVersion row
  queried : Writes dnsCheckTypes row next ∨ next.claims ≠ row.claims → CommitsDns state action row
  probed : Writes edgeCheckTypes row next → CommitsEdge state action row
  moved : next.status ≠ row.status → CommitsDns state action row ∨ CommitsEdge state action row
  ready : next.status = .ready → row.status ≠ .ready → ∀ checkType ∈ edgeCheckTypes,
    ProbedBy after.trail row.id checkType (claimVersion row)

theorem Rightful.of_scheduled {action : Action ι} {row next : Domain} (same : row.Rescheduled next)
    (dns : ¬ Writes dnsCheckTypes row next) (edge : ¬ Writes edgeCheckTypes row next) :
    Rightful state after action row next where
  claim := by rw [claimVersion_eq, same.activeClaim, ← claimVersion_eq]
  queried written := written.elim (absurd · dns) (absurd same.claims)
  probed written := absurd written edge
  moved other := absurd same.status other
  ready entered other := absurd (same.status.symm.trans entered) other

theorem Rightful.refl (action : Action ι) (row : Domain) : Rightful state after action row row :=
  .of_scheduled (.refl row) (not_writes_self _ row) (not_writes_self _ row)

/-- The rows are the same. -/
theorem Rightful.of_same {action : Action ι} {row next : Domain} (keyed : state.db.Keyed)
    (same : after.db = state.db) (member : row ∈ state.db.domains)
    (stored : next ∈ after.db.domains) (id : next.id = row.id) :
    Rightful state after action row next := by
  rw [same] at stored
  rw [List.inj_on_of_nodup_map keyed stored member id]
  exact .refl action row

/-- One domain was rescheduled. -/
theorem Rightful.of_reschedules {action : Action ι} {row next domain : Domain}
    {selects : DomainCheck → Bool} {at_ : Time} (keyed : state.db.Keyed)
    (loaded : domain ∈ state.db.domains)
    (holds : Holds state.db (domain.scheduled selects at_) after.db)
    (member : row ∈ state.db.domains) (stored : next ∈ after.db.domains) (id : next.id = row.id) :
    Rightful state after action row next := by
  rcases replaced_of_id keyed holds member stored id with ⟨same, rfl⟩ | rfl
  · rw [List.inj_on_of_nodup_map keyed member loaded same]
    exact .of_scheduled (domain.scheduled_rescheduled selects at_)
      (not_writes_scheduled _ domain selects at_) (not_writes_scheduled _ domain selects at_)
  · exact .refl action next

/-- A run whose claim is the stored domain's owns it. -/
theorem Follows.owns {run : Run} {types : List CheckType} {domain : Domain}
    (follows : Follows state run) (consistent : state.db.Consistent environment)
    (loads : state.db.Loads run.domainId domain)
    (own : claimVersion domain = claimVersion run.loaded.domain) (saw : run.Saw types) :
    run.Owns types domain := by
  obtain ⟨claim, -, active⟩ := (consistent.sound _ loads.1).activeClaim loads.2.2.1
  have found : claimVersion domain = some (version claim) := by
    rw [claimVersion_eq, active]
    rfl
  refine ⟨loads.2.1.symm, loads.2.2.1, saw, version claim, found, fun sighting inside => ?_⟩
  obtain ⟨asked, live⟩ := follows.own loads.1 own sighting inside
  obtain ⟨-, domainId, -, -⟩ := follows.seen sighting inside
  exact ⟨domainId.trans loads.2.1.symm, asked.trans found, live.trans found⟩

/-- A ready domain's edge checks were probed for its claim. -/
theorem Traced.ready {next : Domain} (traced : Traced after)
    (consistent : after.db.Consistent environment) (stored : next ∈ after.db.domains)
    (earned : next.ReadyEarned) (ready : next.status = .ready) :
    ∀ checkType ∈ edgeCheckTypes, ProbedBy after.trail next.id checkType (claimVersion next) := by
  obtain ⟨live, -, passing⟩ := earned ready
  have complete := (consistent.sound next stored).complete
  rw [complete.checksPassing_iff] at passing
  intro checkType typed
  have present : checkType ∈ next.checks.map (·.checkType) := by
    rw [complete]
    cases checkType <;> simp [CheckType.all]
  obtain ⟨check, inside, rfl⟩ := List.mem_map.mp present
  refine traced.checked next stored live check inside typed ?_
  rw [passing check inside]
  decide

section Commits

variable [DecidableEq ι] (consistent : state.db.Consistent environment) (traced : Traced state)

include consistent traced

/-- The commit of a DNS phase. -/
theorem Rightful.dns {worker : ι} {run : Run} {ownership routing : Outcome}
    {zone : Option String} {domain value next : Domain} {edgeDue : Bool} {rows : Database}
    {application : Option Application}
    (held : state.workers worker = .queried run ownership routing zone)
    (loads : state.db.Loads run.domainId domain)
    (own : claimVersion domain = claimVersion run.loaded.domain)
    (result : value = (domain.dnsApplied ownership routing state.clock).zoned zone state.clock)
    (isNext : next = value.edgeLeased run.statusBefore run.edgeDue state.clock)
    (afterwards : after = state.advance worker
      (.between (run.applied ⟨value, application⟩ edgeDue)) rows [])
    (kept : Traced after) (sound : after.db.Consistent environment)
    (stored : next ∈ after.db.domains) :
    Rightful state after (.applyDns worker) domain next := by
  have follows := traced.runs worker run (by rw [held]; rfl)
  have observed := traced.observed worker
  rw [held] at observed
  have commits : CommitsDns state (.applyDns worker) domain :=
    ⟨worker, run, ownership, routing, zone, rfl, held,
      follows.owns consistent loads own observed.1⟩
  have domainSound := consistent.sound domain loads.1
  have same : (domain.dnsApplied ownership routing state.clock).Rescheduled next := by
    subst isNext result
    exact (Domain.zoned_rescheduled _ _ _).trans (Domain.edgeLeased_rescheduled _ _ _ _)
  have alike := (domain.dnsApplied_alike ownership routing state.clock).trans same.alike
  have version : claimVersion next = claimVersion domain := by
    rw [claimVersion_eq, same.activeClaim, ← claimVersion_eq,
      dnsApplied_claimVersion domainSound loads.2.2.1]
  refine ⟨version, fun _ => commits, fun written => ?_, fun _ => .inl commits, ?_⟩
  · -- Neither the DNS outcomes nor the new times are anything of the edge checks.
    have unchanged : ¬ Writes edgeCheckTypes domain
        (domain.dnsApplied ownership routing state.clock) :=
      not_writes_sameChecks (domain.dnsApplied_sameChecks ownership routing state.clock)
    subst isNext result
    exact absurd ((written.of_trans unchanged).of_trans (not_writes_zoned _ _ _ _))
      (not_writes_edgeLeased _ _ _ _ _)
  · intro entered other
    have earned := (Domain.dnsApplied_readyEarned domainSound loads.2.2.1 other ownership routing
      state.clock).rescheduled
        (domainSound.dnsApplied loads.2.2.1 ownership routing state.clock).complete same
    have probed := kept.ready sound stored earned entered
    rw [version, alike.id] at probed
    exact probed

omit [DecidableEq ι] in
/-- The commit of an edge phase. -/
theorem Rightful.edge {worker : ι} {run : Run} {certificate origin : Outcome}
    {domain : Domain} (held : state.workers worker = .probed run certificate origin)
    (loads : state.db.Loads run.domainId domain)
    (own : claimVersion domain = claimVersion run.loaded.domain)
    (kept : Traced after) (sound : after.db.Consistent environment)
    (stored : domain.edgeApplied certificate origin state.clock ∈ after.db.domains) :
    Rightful state after (.applyEdge worker) domain
      (domain.edgeApplied certificate origin state.clock) := by
  have follows := traced.runs worker run (by rw [held]; rfl)
  have observed := traced.observed worker
  rw [held] at observed
  have commits : CommitsEdge state (.applyEdge worker) domain :=
    ⟨worker, run, certificate, origin, rfl, held, follows.owns consistent loads own observed⟩
  have domainSound := consistent.sound domain loads.1
  have keeps := domain.edgeApplied_kept certificate origin state.clock
  have version : claimVersion (domain.edgeApplied certificate origin state.clock) =
      claimVersion domain := by
    rw [claimVersion_eq, claimVersion_eq, Domain.activeClaim, keeps.claims, Domain.activeClaim]
  refine ⟨version, fun written => ?_, fun _ => commits, fun _ => .inr commits, ?_⟩
  · rcases written with outcome | claims
    · exact absurd outcome (not_writes_sameChecks
        (domain.edgeApplied_sameChecks certificate origin state.clock))
    · exact absurd keeps.claims claims
  · intro entered other
    have probed := kept.ready sound stored (Domain.edgeApplied_readyEarned domainSound
      loads.2.2.1 other certificate origin state.clock) entered
    rw [version, keeps.id] at probed
    exact probed

/-- Every step of a worker writes only what it observed for the claim of the
domain it writes to. -/
theorem Traced.rightful {action : Action ι} (moves : Moves environment state action after)
    (own : ∀ op, action ≠ .service op) {row next : Domain} (member : row ∈ state.db.domains)
    (stored : next ∈ after.db.domains) (id : next.id = row.id) :
    Rightful state after action row next := by
  have kept := traced.step consistent moves
  have sound := moves.consistent consistent
  have same : ∀ {action : Action ι}, after.db = state.db →
      Rightful state after action row next :=
    fun same => .of_same consistent.keyed same member stored id
  cases moves with
  | lease held loaded holds => exact .of_reschedules consistent.keyed loaded holds member stored id
  | discardDns held loads holds =>
      exact .of_reschedules consistent.keyed loads.1 holds member stored id
  | applyDns held loads claim result due holds =>
      rcases replaced_of_id consistent.keyed holds member stored id with ⟨sameId, isNext⟩ | rfl
      · have isRow := List.inj_on_of_nodup_map consistent.keyed member loads.1
          (sameId.trans (by
            rw [(Domain.edgeLeased_rescheduled _ _ _ _).id, result,
              (Domain.zoned_rescheduled _ _ _).id, (Domain.dnsApplied_alike _ _ _ _).id]))
        subst isRow
        exact .dns consistent traced held loads claim result isNext rfl kept sound stored
      · exact .refl _ next
  | @applyEdge worker run certificate origin domain rows held loads claim holds =>
      rcases replaced_of_id consistent.keyed holds member stored id with ⟨sameId, rfl⟩ | rfl
      · have isRow := List.inj_on_of_nodup_map consistent.keyed member loads.1
          (sameId.trans (domain.edgeApplied_kept certificate origin state.clock).id)
        subst isRow
        exact .edge consistent traced held loads claim kept sound stored
      · exact .refl _ next
  | @service op external unused => exact absurd rfl (own op)
  | _ => exact same rfl

end Commits

end Rightful

/-! ## Observations never cross claims -/

section Runs

variable {ι : Type} [DecidableEq ι] {environment : Environment}

/-- Every run is meant. -/
def Anyhow (_ : State ι) (_ : Action ι) (_ : State ι) : Prop := True

/-- Nothing is stored yet and no worker runs. -/
structure Fresh (start : State ι) : Prop where
  db : start.db = {}
  workers : ∀ worker, start.workers worker = .idle
  trail : start.trail = []

/-- A query made while the claim was live returned its own token, and not that of
any other claim. -/
def ProvesItself (state : State ι) (row : Domain) (claim : OwnershipClaim) : Prop :=
  ∃ sighting ∈ state.trail, sighting.checkType = .ownership ∧ sighting.domainId = row.id ∧
    sighting.live = some (version claim) ∧ ∃ value ∈ sighting.values,
      strip value = claim.txtRecordValue ∧
      ∀ other ∈ state.db.domains, ∀ second ∈ other.claims, second.id ≠ claim.id →
        strip value ≠ second.txtRecordValue

omit [DecidableEq ι] in
theorem Traced.begins {start : State ι} (fresh : Fresh start) : Traced start where
  issued := by simp [fresh.db, tokens]
  unique := by simp [UniqueTokens, fresh.db]
  runs worker run running := by
    rw [fresh.workers] at running
    cases running
  observed worker := by
    rw [fresh.workers]
    trivial
  verified := by simp [fresh.db]
  checked := by simp [fresh.db]

omit [DecidableEq ι] in
theorem Traced.provesItself {state : State ι} (traced : Traced state) {row : Domain}
    (member : row ∈ state.db.domains) {claim : OwnershipClaim} (inside : claim ∈ row.claims)
    (method : claim.verificationMethod = some .dnsTxt) : ProvesItself state row claim := by
  obtain ⟨sighting, seen, isTxt, domainId, live, value, shown, same⟩ :=
    traced.verified row member claim inside method
  refine ⟨sighting, seen, isTxt, domainId, live, value, shown, same, ?_⟩
  intro other stored second present different also
  have texts : challenge claim.token = challenge second.token := same.symm.trans also
  have tokens := (String.append_right_inj _).mp texts
  exact different (traced.unique row member other stored claim inside second present tokens).2.symm

/-- In every run of any number of workers with the operations of the service in
between, what a worker records of a domain, or marks verified, or moves it to,
it observed for the claim that is live at that commit and while that was live,
and the domain is not deleted; and a claim is verified by DNS only by a query
that returned its own token while it was live. -/
theorem observations_stay_with_claim {start state : State ι} (fresh : Fresh start)
    (reaches : Reaches environment Anyhow start state) :
    (∀ action after, state.perform environment action = some after →
      (∀ op, action ≠ .service op) → ∀ row ∈ state.db.domains, ∀ next ∈ after.db.domains,
        next.id = row.id → Rightful state after action row next) ∧
      ∀ row ∈ state.db.domains, ∀ claim ∈ row.claims,
        claim.verificationMethod = some .dnsTxt → ProvesItself state row claim := by
  have empty : start.db.Consistent environment := by
    rw [fresh.db]
    exact Database.consistent_empty environment
  obtain ⟨consistent, traced⟩ := reaches.keeps Traced empty (.begins fresh)
    fun consistent moves _ traced => traced.step consistent moves
  refine ⟨?_, fun row member claim inside => traced.provesItself member inside⟩
  intro action after performed own row member next stored id
  exact traced.rightful consistent (perform_moves consistent.keyed consistent.sound performed)
    own member stored id

end Runs

instance anyhowDecidable {ι : Type} (state : State ι) (action : Action ι) (after : State ι) :
    Decidable (Anyhow state action after) :=
  isTrue trivial

/-- Nothing stored, and one worker. -/
def emptyStart : State Unit where
  db := {}
  clock := 0
  workers := fun _ => .idle

/-- The records that the sample domain's first claim asks for. -/
def sampleResolver : Resolver where
  txt _ := .ok ["custom-domain-verify=token"]
  cname name := .ok (if name = "forms.example.com" then some "edge.example.net" else none)
  hasAddress _ := .ok false

/-- A domain is registered, and a worker verifies its claim. -/
def verifyingActions : List (Action Unit) :=
  [.service (.createApplication "acme" "Acme" "edge.example.net" 1),
    .service (.claimDomain 1 "forms.example.com" "workspace" ⟨2, 3, "token"⟩ 0),
    .begin () 2, .choose (), .lease (), .load (), .queryOwnership () sampleResolver,
    .queryRouting () sampleResolver none, .applyDns ()]

theorem observations_stay_with_claim_verified :
    ∃ state, GuardedRuns.follow (State.perform sampleEnvironment) Anyhow emptyStart
        verifyingActions = some state ∧
      ∃ row ∈ state.db.domains, ∃ claim ∈ row.claims,
        claim.verificationMethod = some .dnsTxt ∧ ProvesItself state row claim := by
  have ran : (GuardedRuns.follow (State.perform sampleEnvironment) Anyhow emptyStart
      verifyingActions).any (fun state => state.db.domains.any fun row =>
        row.claims.any fun claim => claim.verificationMethod == some .dnsTxt) = true := by
    decide +kernel
  obtain ⟨state, followed, verified⟩ := Option.any_eq_true _ _ |>.mp ran
  obtain ⟨row, member, verified⟩ := List.any_eq_true.mp verified
  obtain ⟨claim, inside, method⟩ := List.any_eq_true.mp verified
  refine ⟨state, followed, row, member, claim, inside, eq_of_beq method, ?_⟩
  exact (observations_stay_with_claim ⟨rfl, fun _ => rfl, rfl⟩
    (GuardedRuns.Reaches.of_follow .start followed)).2 row member claim inside (eq_of_beq method)

end CustomDomain.Checks
