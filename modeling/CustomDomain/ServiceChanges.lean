import CustomDomain.RegistrationStatements

/-!
# What the service does to its database

The service as an abstract machine.  A `Change` is everything one operation
can do to the stored rows: one domain is registered or moves on, an application
or an origin is created or changed.  `ServiceRuns` shows that every operation is
a sequence of changes or a purge of old tombstones; here both are shown to keep
the database consistent.
-/

namespace CustomDomain

/-- The name is one `canonicalize` returns. -/
def IsCanonical (environment : Environment) (allowApex : Bool) (name : String) : Prop :=
  ∃ raw, canonicalize environment.tables raw allowApex = .ok name

/-- What every stored application satisfies. -/
structure Application.Valid (environment : Environment) (application : Application) : Prop where
  target : IsCanonical environment true application.cnameTarget
  perMinute : ∀ rate ∈ application.rateLimitPerMinute, 1 ≤ rate ∧ rate ≤ maxRate
  perSecond : ∀ rate ∈ application.rateLimitPerSecond, 1 ≤ rate ∧ rate ≤ maxRate
  archived : application.deletedAt.isSome = true → application.status = .suspended

/-- What every stored origin satisfies. -/
structure VerifiedOrigin.Valid (environment : Environment) (origin : VerifiedOrigin) : Prop where
  host : IsCanonical environment true origin.host
  port : 0 < origin.port ∧ origin.port < 65536

/-- The two differ in their state only. -/
structure VerifiedOrigin.SameEndpoint (first second : VerifiedOrigin) : Prop where
  id : second.id = first.id
  applicationId : second.applicationId = first.applicationId
  scheme : second.scheme = first.scheme
  host : second.host = first.host
  port : second.port = first.port

/-- The application is there and not deleted. -/
def Database.Present (db : Database) (applicationId : Uuid) : Prop :=
  ∃ application ∈ db.applications, application.id = applicationId ∧ application.deletedAt = none

/-- How an origin can be the active one after a change: it is verified or keeps the status it was
active with, and it was active already or its application is not deleted. -/
structure VerifiedOrigin.Serves (db : Database) (origin next : VerifiedOrigin) : Prop where
  status : next.status = .verified ∨ (origin.isActive = true ∧ next.status = origin.status)
  present : origin.isActive = true ∨ db.Present origin.applicationId

section Machine

variable (environment : Environment) (admits : Outcome → Prop)

/-- How one live domain moves on.  `admits` says which outcomes the checks can
have. -/
inductive Evolves (db : Database) (domain : Domain) : Domain → Prop
  | dns (live : domain.isLive = true) {ownership routing : Outcome}
      (admitted : admits ownership ∧ admits routing) (now : Time) :
      Evolves db domain (domain.dnsApplied ownership routing now)
  | edge (live : domain.isLive = true) {certificate origin : Outcome}
      (admitted : admits certificate ∧ admits origin) (now : Time) :
      Evolves db domain (domain.edgeApplied certificate origin now)
  | reissued (live : domain.isLive = true) {application : Application}
      (owner : application ∈ db.applications) {claimId : Uuid} {token : String}
      (unseen : ∀ row ∈ db.domains, ∀ other ∈ row.claims,
        other.id ≠ claimId ∧ other.token ≠ token) (now : Time) :
      Evolves db domain (domain.reissued claimId token application.cnameTarget now)
  | tombstoned (live : domain.isLive = true) (now : Time) :
      Evolves db domain (domain.tombstoned now)
  | rescheduled (live : domain.isLive = true) {next : Domain} (same : domain.Rescheduled next)
      (zone : next.zone = domain.zone) : Evolves db domain next

/-- One change of the stored rows. -/
inductive Change (db : Database) : Database → Prop
  | quiet {after : Database} (same : db.SameDomains after) : Change db after
  | registered {application : Application} (owner : application ∈ db.applications)
      {hostname reference : String} {fresh : Fresh} {now : Time} {domain : Domain}
      (registration : Registration environment application hostname reference fresh now db domain)
      (adopted : Bool) {after : Database}
      (adds : Adds db (if adopted then domain.adopted now else domain) after) : Change db after
  | evolved {domain next : Domain} (member : domain ∈ db.domains)
      (evolves : Evolves admits db domain next) {after : Database} (holds : Holds db next after) :
      Change db after
  | applicationCreated {application : Application} (valid : application.Valid environment)
      (unused : ∀ other ∈ db.applications, other.id ≠ application.id) :
      Change db { db with applications := db.applications ++ [application] }
  | applicationChanged {application next : Application} (member : application ∈ db.applications)
      (same : next.id = application.id) (valid : next.Valid environment)
      (archives : next.deletedAt ≠ application.deletedAt →
        ∀ origin ∈ db.origins, origin.applicationId = application.id → origin.isActive = false) :
      Change db (db.updateApplication application.id fun _ => next)
  | originAdded {origin : VerifiedOrigin} (valid : origin.Valid environment)
      (inactive : origin.isActive = false) (unused : ∀ other ∈ db.origins, other.id ≠ origin.id) :
      Change db { db with origins := db.origins ++ [origin] }
  | originChanged {origin next : VerifiedOrigin} (member : origin ∈ db.origins)
      (same : origin.SameEndpoint next)
      (alone : next.isActive = true → ∀ other ∈ db.origins,
        other.applicationId = origin.applicationId → other.id ≠ origin.id →
          other.isActive = false)
      (serves : next.isActive = true → VerifiedOrigin.Serves db origin next) :
      Change db (db.updateOrigin origin.id fun _ => next)
  | originRemoved (id : Uuid) :
      Change db { db with origins := db.origins.filter fun origin => origin.id ≠ id }
  | credentialsChanged (credentials : List ApiCredential) :
      Change db { db with credentials := credentials }

/-- Any number of changes. -/
abbrev Changes : Database → Database → Prop := Relation.ReflTransGen (Change environment admits)

/-- One transaction of the service: a sequence of changes, or a purge. -/
def ServiceStep (db after : Database) : Prop :=
  Changes environment admits db after ∨ ∃ now, after = purgeRows now db

end Machine

/-! ## Consistency -/

/-- What holds of the stored rows at any time. -/
structure Database.Consistent (environment : Environment) (db : Database) : Prop where
  keyed : db.Keyed
  applicationsKeyed : (db.applications.map (·.id)).Nodup
  originsKeyed : (db.origins.map (·.id)).Nodup
  sound : ∀ domain ∈ db.domains, domain.Sound
  hostname : ∀ domain ∈ db.domains, IsCanonical environment false domain.hostname
  single : ∀ first ∈ db.domains, ∀ second ∈ db.domains, first.isLive = true →
    second.isLive = true → first.hostname = second.hostname → first.id = second.id
  owned : ∀ domain ∈ db.domains, ∃ application ∈ db.applications,
    application.id = domain.applicationId
  target : ∀ domain ∈ db.domains, ∀ claim ∈ domain.claims,
    IsCanonical environment true claim.cnameTarget
  application : ∀ application ∈ db.applications, application.Valid environment
  origin : ∀ origin ∈ db.origins, origin.Valid environment
  active : ∀ first ∈ db.origins, ∀ second ∈ db.origins, first.isActive = true →
    second.isActive = true → first.applicationId = second.applicationId → first.id = second.id

theorem Database.consistent_empty (environment : Environment) :
    ({} : Database).Consistent environment := by
  refine ⟨List.nodup_nil, List.nodup_nil, List.nodup_nil, ?_, ?_, ?_, ?_, ?_, ?_, ?_, ?_⟩ <;>
    · intro _ member
      cases member

section Evolution

variable {environment : Environment} {admits : Outcome → Prop} {db : Database}
  {domain next : Domain}

theorem Evolves.live (evolves : Evolves admits db domain next) : domain.isLive = true := by
  cases evolves <;> assumption

theorem Evolves.sound (sound : domain.Sound) (member : domain ∈ db.domains)
    (evolves : Evolves admits db domain next) : next.Sound := by
  cases evolves with
  | dns live admitted now => exact sound.dnsApplied live _ _ now
  | edge live admitted now => exact sound.edgeApplied live _ _ now
  | reissued live owner unseen now =>
      exact sound.reissued live (fun claim inside => (unseen domain member claim inside).1) _ _ now
  | tombstoned live now => exact sound.tombstoned live now
  | rescheduled live same => exact same.sound sound

theorem Evolves.readyEarned (decided : ∀ outcome, admits outcome → outcome.status ≠ .pending)
    (sound : domain.Sound) (earned : domain.ReadyEarned)
    (evolves : Evolves admits db domain next) : next.ReadyEarned := by
  cases evolves with
  | dns live admitted now =>
      exact Domain.ReadyEarned.dnsApplied sound live earned
        ⟨decided _ admitted.1, decided _ admitted.2⟩ now
  | edge live admitted now =>
      exact Domain.ReadyEarned.edgeApplied sound live earned
        ⟨decided _ admitted.1, decided _ admitted.2⟩ now
  | reissued live owner unseen now => exact Domain.reissued_readyEarned sound live _ _ _ now
  | tombstoned live now => exact domain.tombstoned_readyEarned now
  | rescheduled live same => exact earned.rescheduled sound.complete same

/-- The registration stays what it was; only a re-issue adds a claim. -/
theorem Evolves.frame (sound : domain.Sound) (evolves : Evolves admits db domain next) :
    next.id = domain.id ∧ next.applicationId = domain.applicationId ∧
      next.hostname = domain.hostname ∧
      ∀ claim ∈ next.claims, (∃ old ∈ domain.claims, old.cnameTarget = claim.cnameTarget) ∨
        ∃ application ∈ db.applications, application.cnameTarget = claim.cnameTarget := by
  have ofAlike : ∀ {next : Domain}, domain.Alike next → next.id = domain.id ∧
      next.applicationId = domain.applicationId ∧ next.hostname = domain.hostname ∧
      ∀ claim ∈ next.claims, ∃ old ∈ domain.claims, old.cnameTarget = claim.cnameTarget := by
    refine fun alike => ⟨alike.id, alike.applicationId, alike.hostname, fun claim member => ?_⟩
    obtain ⟨old, present, label⟩ := alike.symm.exists_label member
    simp only [Domain.claimLabel, Prod.mk.injEq] at label
    exact ⟨old, present, label.2.2.2⟩
  have weaken : ∀ {next : Domain}, domain.Alike next → next.id = domain.id ∧
      next.applicationId = domain.applicationId ∧ next.hostname = domain.hostname ∧
      ∀ claim ∈ next.claims, (∃ old ∈ domain.claims, old.cnameTarget = claim.cnameTarget) ∨
        ∃ application ∈ db.applications, application.cnameTarget = claim.cnameTarget :=
    fun alike => ⟨(ofAlike alike).1, (ofAlike alike).2.1, (ofAlike alike).2.2.1,
      fun claim member => .inl ((ofAlike alike).2.2.2 claim member)⟩
  cases evolves with
  | dns live admitted now => exact weaken (domain.dnsApplied_alike _ _ now)
  | edge live admitted now => exact weaken (domain.edgeApplied_kept _ _ now).alike
  | reissued live owner unseen now =>
      have reset : domain.Alike (domain.reset now) :=
        (domain.changeClaim_alike _).trans (Domain.reset_facts sound live now).1.alike
      obtain ⟨id, applicationId, hostname, targets⟩ := ofAlike reset
      rw [Domain.reissued]
      generalize domain.reset now = cleared at *
      refine ⟨id, applicationId, hostname, fun claim member => ?_⟩
      rw [Domain.addClaim, List.mem_append, List.mem_singleton] at member
      rcases member with old | rfl
      · exact .inl (targets claim old)
      · exact .inr ⟨_, owner, rfl⟩
  | tombstoned live now => exact weaken (domain.tombstoned_alike now)
  | rescheduled live same => exact weaken same.alike

end Evolution

namespace Database.Consistent

variable {environment : Environment} {admits : Outcome → Prop} {db after : Database}
  (consistent : db.Consistent environment)

include consistent

theorem congr (domains : after.domains = db.domains)
    (applications : after.applications = db.applications)
    (origins : after.origins = db.origins) : after.Consistent environment := by
  obtain ⟨keyed, applicationsKeyed, originsKeyed, sound, hostname, single, owned, target,
    application, origin, active⟩ := consistent
  refine ⟨?_, ?_, ?_, ?_, ?_, ?_, ?_, ?_, ?_, ?_, ?_⟩
  · rwa [Keyed, domains]
  all_goals simpa only [domains, applications, origins]

theorem sameDomains (same : db.SameDomains after) : after.Consistent environment :=
  consistent.congr same.domains same.setup.applications same.setup.origins

omit consistent in
/-- No live row has the hostname of a name that was found free. -/
theorem hostname_ne {hostname : String} (unclaimed : db.liveByHostname hostname = none)
    {row : Domain} (member : row ∈ db.domains) (live : row.isLive = true) :
    row.hostname ≠ hostname := by
  intro same
  exact absurd (List.find?_eq_none.mp unclaimed row member) (by simp [live, same])

theorem adds {domain : Domain} (adds : Adds db domain after) (sound : domain.Sound)
    (canonical : IsCanonical environment false domain.hostname)
    (unclaimed : db.liveByHostname domain.hostname = none)
    (unused : db.domain? domain.id = none)
    (owner : ∃ application ∈ db.applications, application.id = domain.applicationId)
    (target : ∀ claim ∈ domain.claims, IsCanonical environment true claim.cnameTarget) :
    after.Consistent environment := by
  have members : ∀ {row : Domain}, row ∈ after.domains → row ∈ db.domains ∨ row = domain := by
    intro row member
    rw [adds.domains] at member
    simpa using member
  refine ⟨?_, ?_, ?_, ?_, ?_, ?_, ?_, ?_, ?_, ?_, ?_⟩
  · rw [Keyed, adds.domains]
    exact consistent.keyed.append unused
  · rw [adds.setup.applications]
    exact consistent.applicationsKeyed
  · rw [adds.setup.origins]
    exact consistent.originsKeyed
  · intro row member
    rcases members member with old | rfl
    · exact consistent.sound row old
    · exact sound
  · intro row member
    rcases members member with old | rfl
    · exact consistent.hostname row old
    · exact canonical
  · intro first firstMember second secondMember firstLive secondLive same
    rcases members firstMember with old | rfl
    · rcases members secondMember with old' | rfl
      · exact consistent.single first old second old' firstLive secondLive same
      · exact absurd same (hostname_ne unclaimed old firstLive)
    · rcases members secondMember with old' | rfl
      · exact absurd same.symm (hostname_ne unclaimed old' secondLive)
      · rfl
  · rw [adds.setup.applications]
    intro row member
    rcases members member with old | rfl
    · exact consistent.owned row old
    · exact owner
  · intro row member
    rcases members member with old | rfl
    · exact consistent.target row old
    · exact target
  · rw [adds.setup.applications]
    exact consistent.application
  · rw [adds.setup.origins]
    exact consistent.origin
  · rw [adds.setup.origins]
    exact consistent.active

theorem registered {application : Application} (owner : application ∈ db.applications)
    {hostname reference : String} {fresh : Fresh} {now : Time} {domain : Domain}
    (registration : Registration environment application hostname reference fresh now db domain)
    (adopted : Bool) (adds : Adds db (if adopted then domain.adopted now else domain) after) :
    after.Consistent environment := by
  have id : domain.id = fresh.domainId := by rw [registration.eq]; rfl
  have applicationId : domain.applicationId = application.id := by rw [registration.eq]; rfl
  have claims : ∀ claim ∈ domain.claims, claim.cnameTarget = application.cnameTarget := by
    rw [registration.eq]
    intro claim member
    rw [Domain.registered, List.mem_singleton] at member
    rw [member]
    rfl
  have live : domain.isLive = true := by rw [registration.eq]; rfl
  have sound : domain.Sound := by
    rw [registration.eq]
    exact Domain.registered_sound rfl (by simp [newDomain]) _ _ _ _
  -- An adopted domain is the same registration, further along.
  have alike : domain.Alike (if adopted then domain.adopted now else domain) := by
    split
    next => exact domain.adopted_alike now
    next => exact .refl domain
  refine consistent.adds adds ?_ ?_ ?_ ?_ ?_ ?_
  · split
    next => exact sound.adopted live now
    next => exact sound
  · rw [alike.hostname]
    exact ⟨hostname, registration.canonical⟩
  · rw [alike.hostname]
    exact registration.unclaimed
  · rw [alike.id, id]
    exact registration.unused
  · rw [alike.applicationId, applicationId]
    exact ⟨application, owner, rfl⟩
  · intro claim member
    obtain ⟨old, present, label⟩ := alike.symm.exists_label member
    simp only [Domain.claimLabel, Prod.mk.injEq] at label
    rw [← label.2.2.2, claims old present]
    exact (consistent.application application owner).target

/-- One row is replaced by a sound one of the same registration. -/
theorem replaced {domain next : Domain} (member : domain ∈ db.domains) (id : next.id = domain.id)
    (applicationId : next.applicationId = domain.applicationId)
    (hostname : next.hostname = domain.hostname) (sound : next.Sound)
    (live : next.isLive = true → domain.isLive = true)
    (target : ∀ claim ∈ next.claims, IsCanonical environment true claim.cnameTarget)
    (holds : Holds db next after) : after.Consistent environment := by
  have members : ∀ {row : Domain}, row ∈ after.domains → row ∈ db.domains ∨ row = next := by
    intro row present
    rw [holds.domains] at present
    obtain ⟨before, stored, rfl⟩ := List.mem_map.mp present
    split
    next => exact .inr rfl
    next => exact .inl stored
  have others : ∀ {row : Domain}, row ∈ db.domains → row.isLive = true → next.isLive = true →
      row.hostname = next.hostname → row.id = next.id := by
    intro row stored rowLive nextLive same
    rw [id]
    exact consistent.single row stored domain member rowLive (live nextLive)
      (same.trans hostname)
  refine ⟨holds.keyed consistent.keyed, ?_, ?_, ?_, ?_, ?_, ?_, ?_, ?_, ?_, ?_⟩
  · rw [holds.setup.applications]
    exact consistent.applicationsKeyed
  · rw [holds.setup.origins]
    exact consistent.originsKeyed
  · intro row present
    rcases members present with old | rfl
    · exact consistent.sound row old
    · exact sound
  · intro row present
    rcases members present with old | rfl
    · exact consistent.hostname row old
    · rw [hostname]
      exact consistent.hostname domain member
  · intro first firstMember second secondMember firstLive secondLive same
    rcases members firstMember with old | rfl
    · rcases members secondMember with old' | rfl
      · exact consistent.single first old second old' firstLive secondLive same
      · exact others old firstLive secondLive same
    · rcases members secondMember with old' | rfl
      · exact (others old' secondLive firstLive same.symm).symm
      · rfl
  · rw [holds.setup.applications]
    intro row present
    rcases members present with old | rfl
    · exact consistent.owned row old
    · rw [applicationId]
      exact consistent.owned domain member
  · intro row present
    rcases members present with old | rfl
    · exact consistent.target row old
    · exact target
  · rw [holds.setup.applications]
    exact consistent.application
  · rw [holds.setup.origins]
    exact consistent.origin
  · rw [holds.setup.origins]
    exact consistent.active

theorem evolved {domain next : Domain} (member : domain ∈ db.domains)
    (evolves : Evolves admits db domain next) (holds : Holds db next after) :
    after.Consistent environment := by
  have sound := consistent.sound domain member
  obtain ⟨id, applicationId, hostname, targets⟩ := evolves.frame sound
  refine consistent.replaced member id applicationId hostname (evolves.sound sound member)
    (fun _ => evolves.live) ?_ holds
  intro claim inside
  rcases targets claim inside with ⟨previous, stored, same⟩ | ⟨application, owner, same⟩
  · rw [← same]
    exact consistent.target domain member previous stored
  · rw [← same]
    exact (consistent.application application owner).target

/-- One row is replaced by a sound one with the same claims, whatever their
states. -/
theorem alike {domain next : Domain} (member : domain ∈ db.domains) (alike : domain.Alike next)
    (sound : next.Sound) (live : next.isLive = domain.isLive) (holds : Holds db next after) :
    after.Consistent environment := by
  refine consistent.replaced member alike.id alike.applicationId alike.hostname sound
    (fun nextLive => live.symm.trans nextLive) ?_ holds
  intro claim inside
  obtain ⟨old, present, label⟩ := alike.symm.exists_label inside
  simp only [Domain.claimLabel, Prod.mk.injEq] at label
  rw [← label.2.2.2]
  exact consistent.target domain member old present

theorem applicationCreated {application : Application} (valid : application.Valid environment)
    (unused : ∀ other ∈ db.applications, other.id ≠ application.id) :
    ({ db with applications := db.applications ++ [application] } : Database).Consistent
      environment := by
  refine ⟨consistent.keyed, ?_, consistent.originsKeyed, consistent.sound, consistent.hostname,
    consistent.single, ?_, consistent.target, ?_, consistent.origin, consistent.active⟩
  · simp only [List.map_append, List.map_singleton]
    rw [← List.concat_eq_append]
    refine List.Nodup.concat ?_ consistent.applicationsKeyed
    intro member
    obtain ⟨other, present, same⟩ := List.mem_map.mp member
    exact unused other present same
  · intro domain member
    obtain ⟨owner, present, same⟩ := consistent.owned domain member
    exact ⟨owner, List.mem_append_left _ present, same⟩
  · intro other member
    rcases List.mem_append.mp member with old | new
    · exact consistent.application other old
    · rw [List.mem_singleton.mp new]
      exact valid

theorem applicationChanged {application next : Application}
    (same : next.id = application.id) (valid : next.Valid environment) :
    (db.updateApplication application.id fun _ => next).Consistent environment := by
  have ids : (db.updateApplication application.id fun _ => next).applications.map (·.id) =
      db.applications.map (·.id) := by
    rw [updateApplication, List.map_map]
    refine List.map_congr_left fun other _ => ?_
    simp only [Function.comp_apply]
    split
    next here => rw [here, same]
    next => rfl
  refine ⟨consistent.keyed, by rw [ids]; exact consistent.applicationsKeyed,
    consistent.originsKeyed, consistent.sound, consistent.hostname,
    consistent.single, ?_, consistent.target, ?_, consistent.origin, consistent.active⟩
  · intro domain present
    obtain ⟨owner, stored, owns⟩ := consistent.owned domain present
    have known : owner.id ∈ db.applications.map (·.id) := List.mem_map_of_mem stored
    rw [← ids] at known
    obtain ⟨updated, updatedMember, updatedId⟩ := List.mem_map.mp known
    exact ⟨updated, updatedMember, updatedId.trans owns⟩
  · intro other present
    rw [updateApplication] at present
    obtain ⟨before, stored, rfl⟩ := List.mem_map.mp present
    split
    next => exact valid
    next => exact consistent.application before stored

theorem originAdded {origin : VerifiedOrigin} (valid : origin.Valid environment)
    (inactive : origin.isActive = false)
    (unused : ∀ other ∈ db.origins, other.id ≠ origin.id) :
    ({ db with origins := db.origins ++ [origin] } : Database).Consistent environment := by
  have members : ∀ {other : VerifiedOrigin}, other ∈ db.origins ++ [origin] →
      other ∈ db.origins ∨ other = origin := by
    intro other member
    simpa using member
  refine ⟨consistent.keyed, consistent.applicationsKeyed, ?_, consistent.sound,
    consistent.hostname, consistent.single, consistent.owned, consistent.target,
    consistent.application, ?_, ?_⟩
  · simp only [List.map_append, List.map_singleton]
    rw [← List.concat_eq_append]
    refine List.Nodup.concat ?_ consistent.originsKeyed
    intro member
    obtain ⟨other, present, same⟩ := List.mem_map.mp member
    exact unused other present same
  · intro other member
    rcases members member with old | rfl
    · exact consistent.origin other old
    · exact valid
  · intro first firstMember second secondMember firstActive secondActive same
    rcases members firstMember with old | rfl
    · rcases members secondMember with old' | rfl
      · exact consistent.active first old second old' firstActive secondActive same
      · rw [inactive] at secondActive
        cases secondActive
    · rw [inactive] at firstActive
      cases firstActive

theorem originChanged {origin next : VerifiedOrigin} (member : origin ∈ db.origins)
    (same : origin.SameEndpoint next)
    (alone : next.isActive = true → ∀ other ∈ db.origins,
      other.applicationId = origin.applicationId → other.id ≠ origin.id →
        other.isActive = false) :
    (db.updateOrigin origin.id fun _ => next).Consistent environment := by
  have ids : (db.updateOrigin origin.id fun _ => next).origins.map (·.id) =
      db.origins.map (·.id) := by
    rw [updateOrigin, List.map_map]
    refine List.map_congr_left fun other _ => ?_
    simp only [Function.comp_apply]
    split
    next here => rw [here, same.id]
    next => rfl
  have members : ∀ {other : VerifiedOrigin},
      other ∈ (db.updateOrigin origin.id fun _ => next).origins →
      (other ∈ db.origins ∧ other.id ≠ origin.id) ∨ other = next := by
    intro other present
    rw [updateOrigin] at present
    obtain ⟨before, stored, rfl⟩ := List.mem_map.mp present
    split
    next => exact .inr rfl
    next elsewhere => exact .inl ⟨stored, elsewhere⟩
  have clash : ∀ {other : VerifiedOrigin}, other ∈ db.origins → other.id ≠ origin.id →
      other.isActive = true → next.isActive = true →
      other.applicationId ≠ next.applicationId := by
    intro other stored elsewhere active nextActive owner
    rw [alone nextActive other stored (owner.trans same.applicationId) elsewhere] at active
    cases active
  refine ⟨consistent.keyed, consistent.applicationsKeyed,
    by rw [ids]; exact consistent.originsKeyed, consistent.sound,
    consistent.hostname, consistent.single, consistent.owned, consistent.target,
    consistent.application, ?_, ?_⟩
  · intro other present
    rcases members present with ⟨stored, -⟩ | rfl
    · exact consistent.origin other stored
    · have valid := consistent.origin origin member
      exact ⟨by rw [same.host]; exact valid.host, by rw [same.port]; exact valid.port⟩
  · intro first firstMember second secondMember firstActive secondActive owner
    rcases members firstMember with ⟨old, elsewhere⟩ | rfl
    · rcases members secondMember with ⟨old', elsewhere'⟩ | rfl
      · exact consistent.active first old second old' firstActive secondActive owner
      · exact absurd owner (clash old elsewhere firstActive secondActive)
    · rcases members secondMember with ⟨old', elsewhere'⟩ | rfl
      · exact absurd owner.symm (clash old' elsewhere' secondActive firstActive)
      · rfl

theorem originRemoved (id : Uuid) :
    ({ db with origins := db.origins.filter fun origin => origin.id ≠ id } : Database).Consistent
      environment := by
  refine ⟨consistent.keyed, consistent.applicationsKeyed,
    consistent.originsKeyed.sublist (List.filter_sublist.map _), consistent.sound,
    consistent.hostname, consistent.single, consistent.owned, consistent.target,
    consistent.application, ?_, ?_⟩
  · exact fun origin member => consistent.origin origin (List.mem_of_mem_filter member)
  · exact fun first firstMember second secondMember =>
      consistent.active first (List.mem_of_mem_filter firstMember) second
        (List.mem_of_mem_filter secondMember)

theorem purged (now : Time) : (purgeRows now db).Consistent environment := by
  have domains : (purgeRows now db).domains.Sublist db.domains := List.filter_sublist
  have applications : (purgeRows now db).applications.Sublist db.applications :=
    List.filter_sublist
  have origins : (purgeRows now db).origins.Sublist db.origins := List.filter_sublist
  refine ⟨consistent.keyed.sublist (domains.map _),
    consistent.applicationsKeyed.sublist (applications.map _),
    consistent.originsKeyed.sublist (origins.map _),
    fun domain member => consistent.sound domain (domains.subset member),
    fun domain member => consistent.hostname domain (domains.subset member),
    fun first firstMember second secondMember => consistent.single first
      (domains.subset firstMember) second (domains.subset secondMember), ?_,
    fun domain member => consistent.target domain (domains.subset member),
    fun application member => consistent.application application (applications.subset member),
    fun origin member => consistent.origin origin (origins.subset member),
    fun first firstMember second secondMember => consistent.active first
      (origins.subset firstMember) second (origins.subset secondMember)⟩
  -- An application that still has a domain is kept.
  intro domain member
  obtain ⟨owner, stored, owns⟩ := consistent.owned domain (domains.subset member)
  refine ⟨owner, ?_, owns⟩
  have kept : ((purgeRows now db).domains.any fun other =>
      other.applicationId == owner.id) = true :=
    List.any_eq_true.mpr ⟨domain, member, by simp [owns]⟩
  rw [purgeRows] at kept
  rw [purgeRows, List.mem_filter]
  refine ⟨stored, ?_⟩
  simp only at kept
  simp [kept]

theorem change (change : Change environment admits db after) :
    after.Consistent environment := by
  cases change with
  | quiet same => exact consistent.sameDomains same
  | registered owner registration adopted adds =>
      exact consistent.registered owner registration adopted adds
  | evolved member evolves holds => exact consistent.evolved member evolves holds
  | applicationCreated valid unused => exact consistent.applicationCreated valid unused
  | applicationChanged _ same valid _ => exact consistent.applicationChanged same valid
  | originAdded valid inactive unused => exact consistent.originAdded valid inactive unused
  | originChanged member same alone _ => exact consistent.originChanged member same alone
  | originRemoved id => exact consistent.originRemoved id
  | credentialsChanged credentials => exact consistent.congr rfl rfl rfl

theorem changes (changes : Changes environment admits db after) :
    after.Consistent environment := by
  induction changes with
  | refl => exact consistent
  | tail _ step ih => exact ih.change step

/-- Every transaction of the service keeps the database consistent. -/
theorem step (step : ServiceStep environment admits db after) : after.Consistent environment := by
  rcases step with changes | ⟨now, rfl⟩
  · exact consistent.changes changes
  · exact consistent.purged now

end Database.Consistent

end CustomDomain
