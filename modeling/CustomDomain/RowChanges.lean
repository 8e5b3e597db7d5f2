import CustomDomain.ApplicationService
import CustomDomain.TransactionRely

/-!
# Statements that change rows one by one

What a statement's pending change does to a database it has never seen: which
rows it can touch and what it keeps of each of them.  This is what stays true of
a transaction's own changes while others commit beside it.
-/

namespace CustomDomain

open Transaction

/-- Live domains, of one application or of all. -/
def Database.liveCount (db : Database) (scope : Option Uuid) : Nat := (db.liveDomains scope).length

/-- The row keeps its key and its application, and does not come to life. -/
structure Domain.Thins (before after : Domain) : Prop where
  id : after.id = before.id
  application : after.applicationId = before.applicationId
  live : after.isLive = true → before.isLive = true

/-- The row counts as before. -/
structure Domain.Counts (before after : Domain) : Prop where
  id : after.id = before.id
  application : after.applicationId = before.applicationId
  live : after.isLive = before.isLive

/-- Lock rows stay, every application and every domain changes to one it is
related to, and the events added are of the given kind. -/
structure RowWise (kept : Application → Application → Prop) (related : Domain → Domain → Prop)
    (logged : EventPayload → Prop) (change : Database → Database) : Prop where
  applications : ∀ db, ∃ update : Application → Application, (∀ row, kept row (update row)) ∧
    (change db).applications = db.applications.map update
  edgeLocks : ∀ db, (change db).edgeLocks = db.edgeLocks
  domains : ∀ db, ∃ update : Domain → Domain, (∀ domain, related domain (update domain)) ∧
    (change db).domains = db.domains.map update
  events : ∀ db, ∃ added, (∀ event ∈ added, logged event.payload) ∧ (change db).events = db.events ++ added

theorem RowWise.applications_eq {related : Domain → Domain → Prop} {logged : EventPayload → Prop}
    {change : Database → Database} (rowWise : RowWise Eq related logged change) (db : Database) :
    (change db).applications = db.applications := by
  obtain ⟨update, same, applications⟩ := rowWise.applications db
  rw [applications]
  conv_rhs => rw [← List.map_id db.applications]
  exact List.map_congr_left fun row _ => (same row).symm

theorem no_events {logged : EventPayload → Prop} (db : Database) :
    ∃ added, (∀ event ∈ added, logged event.payload) ∧ db.events = db.events ++ added :=
  ⟨[], by simp, (List.append_nil _).symm⟩

theorem RowWise.updateDomain {kept : Application → Application → Prop}
    {related : Domain → Domain → Prop} {logged : EventPayload → Prop} {id : Uuid} {change : Domain → Domain}
    (keeps : ∀ row, kept row row) (refl : ∀ domain, related domain domain)
    (changes : ∀ domain, related domain (change domain)) :
    RowWise kept related logged fun db => db.updateDomain id change where
  applications db := ⟨fun row => row, keeps, (List.map_id' _).symm⟩
  edgeLocks _ := rfl
  domains db := by
    refine ⟨fun domain => if domain.id = id then change domain else domain, ?_, rfl⟩
    intro domain
    dsimp only
    split
    next => exact changes domain
    next => exact refl domain
  events := no_events

theorem RowWise.of_same {kept : Application → Application → Prop}
    {related : Domain → Domain → Prop} {logged : EventPayload → Prop}
    {change : Database → Database} (keeps : ∀ row, kept row row)
    (refl : ∀ domain, related domain domain)
    (applications : ∀ db, (change db).applications = db.applications)
    (edgeLocks : ∀ db, (change db).edgeLocks = db.edgeLocks)
    (domains : ∀ db, (change db).domains = db.domains)
    (events : ∀ db, ∃ added, (∀ event ∈ added, logged event.payload) ∧
      (change db).events = db.events ++ added) : RowWise kept related logged change where
  applications db := ⟨fun row => row, keeps, by rw [applications, List.map_id']⟩
  edgeLocks := edgeLocks
  domains db := ⟨fun domain => domain, refl, by rw [domains, List.map_id']⟩
  events := events

theorem length_filter_map_le (rows : List Domain) {update : Domain → Domain}
    (thins : ∀ domain : Domain, domain.Thins (update domain)) (scope : Option Uuid) :
    ((rows.map update).filter fun domain => domain.isLive &&
      scope.all fun id => decide (domain.applicationId = id)).length ≤
    (rows.filter fun domain => domain.isLive &&
      scope.all fun id => decide (domain.applicationId = id)).length := by
  rw [List.filter_map, List.length_map, ← List.countP_eq_length_filter,
    ← List.countP_eq_length_filter]
  refine List.countP_mono_left fun domain _ counted => ?_
  simp only [Function.comp, Bool.and_eq_true, (thins domain).application] at counted ⊢
  exact ⟨(thins domain).live counted.1, counted.2⟩

theorem RowWise.liveCount_le {kept : Application → Application → Prop}
    {logged : EventPayload → Prop} {change : Database → Database}
    (rowWise : RowWise kept Domain.Thins logged change) (db : Database) (scope : Option Uuid) :
    (change db).liveCount scope ≤ db.liveCount scope := by
  obtain ⟨update, thins, domains⟩ := rowWise.domains db
  unfold Database.liveCount Database.liveDomains
  rw [domains]
  exact length_filter_map_le db.domains thins scope

theorem RowWise.liveCount_eq {kept : Application → Application → Prop}
    {logged : EventPayload → Prop} {change : Database → Database}
    (rowWise : RowWise kept Domain.Counts logged change) (db : Database) (scope : Option Uuid) :
    (change db).liveCount scope = db.liveCount scope := by
  obtain ⟨update, counts, domains⟩ := rowWise.domains db
  unfold Database.liveCount Database.liveDomains
  rw [domains, List.filter_map, List.length_map]
  congr 2
  funext domain
  simp only [Function.comp, (counts domain).application, (counts domain).live]

theorem RowWise.keys_eq {kept : Application → Application → Prop}
    {related : Domain → Domain → Prop} {logged : EventPayload → Prop}
    {change : Database → Database} (rowWise : RowWise kept related logged change)
    (key : ∀ {before after}, related before after → after.id = before.id) (db : Database) :
    (change db).domains.map (·.id) = db.domains.map (·.id) := by
  obtain ⟨update, relates, domains⟩ := rowWise.domains db
  rw [domains, List.map_map]
  exact List.map_congr_left fun domain _ => key (relates domain)

/-- Any error but a reached limit. -/
def NotLimitReached (error : ServiceError) : Prop :=
  ∀ scope limit live, error ≠ .domainLimitReached scope limit live

/-- A statement that leaves a row's key, application and deletion alone is
permitted. -/
structure Permits (kept : Application → Application → Prop) (related : Domain → Domain → Prop) :
    Prop where
  keeps : ∀ row, kept row row
  same : ∀ before after : Domain, after.id = before.id →
    after.applicationId = before.applicationId → after.deletedAt = before.deletedAt →
    related before after

theorem Permits.refl {kept : Application → Application → Prop} {related : Domain → Domain → Prop}
    (permits : Permits kept related) (domain : Domain) : related domain domain :=
  permits.same domain domain rfl rfl rfl

theorem Permits.thins {kept : Application → Application → Prop} (keeps : ∀ row, kept row row) :
    Permits kept Domain.Thins where
  keeps := keeps
  same before after id application deleted :=
    ⟨id, application, fun live => by simpa [Domain.isLive, Domain.isDeleted, deleted] using live⟩

theorem Permits.counts : Permits Eq Domain.Counts where
  keeps _ := rfl
  same before after id application deleted :=
    ⟨id, application, by simp [Domain.isLive, Domain.isDeleted, deleted]⟩

section Within

variable {kept : Application → Application → Prop} {related : Domain → Domain → Prop}
  {logged : EventPayload → Prop} (permits : Permits kept related)

include permits

theorem updateDomain_rowWise {id : Uuid} {change : Domain → Domain}
    (same : ∀ domain, (change domain).id = domain.id)
    (application : ∀ domain, (change domain).applicationId = domain.applicationId)
    (deleted : ∀ domain, (change domain).deletedAt = domain.deletedAt) :
    RowWise kept related logged fun db => db.updateDomain id change :=
  .updateDomain permits.keeps permits.refl
    fun domain => permits.same _ _ (same domain) (application domain) (deleted domain)

theorem insertCheck_within (domainId : Uuid) (check : DomainCheck) :
    (insertCheck domainId check).Within (RowWise kept related logged) NotLimitReached := by
  intro view
  refine ⟨updateDomain_rowWise permits (fun _ => rfl) (fun _ => rfl) fun _ => rfl, ?_⟩
  dsimp only
  split
  next => exact fun _ _ _ => by simp
  next =>
    split
    next => exact fun _ _ _ => by simp
    next => exact trivial

theorem insertClaim_within (domainId : Uuid) (claim : OwnershipClaim) :
    (insertClaim domainId claim).Within (RowWise kept related logged) NotLimitReached := by
  intro view
  refine ⟨updateDomain_rowWise permits (fun _ => rfl) (fun _ => rfl) fun _ => rfl, ?_⟩
  dsimp only
  split_ifs
  · exact fun _ _ _ => by simp
  · exact fun _ _ _ => by simp
  · exact trivial
  · exact fun _ _ _ => by simp

theorem flushClaim_within (domainId : Uuid) (before after : OwnershipClaim) :
    (flushClaim domainId before after).Within (RowWise kept related logged) NotLimitReached := by
  unfold flushClaim
  split
  next => exact trivial
  next =>
    intro view
    refine ⟨updateDomain_rowWise permits (fun _ => rfl) (fun _ => rfl) fun _ => rfl, ?_⟩
    dsimp only
    split_ifs
    · exact fun _ _ _ => by simp
    · exact trivial
    · exact fun _ _ _ => by simp

theorem recordEvent_within (domain : Domain) {payload : EventPayload} (logs : logged payload)
    (now : Time) :
    (recordEvent domain payload now).Within (RowWise kept related logged) NotLimitReached := by
  intro view
  dsimp only
  intro view'
  refine ⟨.of_same permits.keeps permits.refl (fun _ => rfl) (fun _ => rfl)
    (fun _ => rfl) fun _ => ⟨_, List.forall_mem_singleton.mpr logs, rfl⟩, ?_⟩
  unfold enqueueForEvent
  split
  next => exact trivial
  next =>
    intro view
    dsimp only
    split
    next => exact trivial
    next =>
      exact fun _ => ⟨.of_same permits.keeps permits.refl (fun _ => rfl) (fun _ => rfl)
        (fun _ => rfl) no_events, trivial⟩

theorem flushCheck_within (domainId : Uuid) (before after : DomainCheck) :
    (flushCheck domainId before after).Within (RowWise kept related logged) NotLimitReached := by
  unfold flushCheck
  split
  next => exact trivial
  next =>
    intro view
    refine ⟨updateDomain_rowWise permits (fun _ => rfl) (fun _ => rfl) fun _ => rfl, ?_⟩
    dsimp only
    split
    next => exact trivial
    next => exact fun _ _ _ => by simp

/-- A domain's own columns, its deletion apart. -/
theorem flushDomain_within (before after : Domain) (same : after.deletedAt = before.deletedAt) :
    (flushDomain before after).Within (RowWise kept related logged) NotLimitReached := by
  unfold flushDomain
  split
  next => exact trivial
  next =>
    intro view
    refine ⟨updateDomain_rowWise permits (fun _ => rfl) (fun _ => rfl) fun stored => ?_, ?_⟩
    · exact if_pos same
    · dsimp only
      split
      next => exact trivial
      next => exact fun _ _ _ => by simp

theorem flushOrigin_within (before after : VerifiedOrigin) :
    (flushOrigin before after).Within (RowWise kept related logged) NotLimitReached := by
  unfold flushOrigin
  split
  next => exact trivial
  next =>
    refine fun view => ⟨.of_same permits.keeps permits.refl (fun _ => rfl) (fun _ => rfl)
      (fun _ => rfl) no_events, ?_⟩
    dsimp only
    split_ifs
    · exact fun _ _ _ => by simp
    · exact trivial
    · exact fun _ _ _ => by simp

theorem revokeCredentialRow_within (credential : ApiCredential) (now : Time) :
    (revokeCredentialRow credential now).Within (RowWise kept related logged) NotLimitReached := by
  unfold revokeCredentialRow
  split
  next => exact trivial
  next =>
    exact fun _ => ⟨.of_same permits.keeps permits.refl (fun _ => rfl) (fun _ => rfl)
      (fun _ => rfl) no_events, trivial⟩

omit permits in
theorem selectDomain_within (query : Database → Option Domain) :
    (selectDomain query).Within (RowWise kept related logged) NotLimitReached := by
  intro view
  dsimp only
  split
  next => exact trivial
  next => exact fun _ _ => trivial

omit permits in
theorem refresh_within (domain : Domain) :
    (refresh domain).Within (RowWise kept related logged) NotLimitReached := by
  refine (selectDomain_within _).bind fun found => ?_
  cases found with
  | none => exact fun _ _ _ => by simp
  | some loaded => exact trivial

theorem issueClaim_within (logs : ∀ claimId name, logged (.claimIssued claimId name))
    (domain : Domain) (claimId : Uuid) (token cnameTarget : String)
    (now : Time) :
    (issueClaim domain claimId token cnameTarget now).Within (RowWise kept related logged)
      NotLimitReached :=
  (insertClaim_within permits _ _).bind fun _ =>
    (recordEvent_within permits _ (logs _ _) _).bind fun _ => trivial

theorem revokeLiveClaim_within (logs : ∀ claimId reason, logged (.claimRevoked claimId reason))
    (domain : Domain) (reason : String) (now : Time) :
    (revokeLiveClaim domain reason now).Within (RowWise kept related logged) NotLimitReached := by
  unfold revokeLiveClaim
  split
  next => exact trivial
  next =>
    exact (flushClaim_within permits _ _ _).bind fun _ =>
      (recordEvent_within permits _ (logs _ _) _).bind fun _ => trivial

end Within

theorem Domain.Thins.refl (domain : Domain) : domain.Thins domain :=
  ⟨rfl, rfl, fun live => live⟩

/-- `delete_domain` sets `deleted_at` and never clears it. -/
theorem deleteDomain_within {kept : Application → Application → Prop}
    {logged : EventPayload → Prop} (keeps : ∀ row, kept row row)
    (revokes : ∀ claimId reason, logged (.claimRevoked claimId reason))
    (deletes : ∀ hostname purgeAfter, logged (.domainDeleted hostname purgeAfter))
    (application : Application) (domainId : Uuid) (now : Time) :
    (deleteDomain application domainId now).Within (RowWise kept Domain.Thins logged)
      NotLimitReached := by
  have permits := Permits.thins keeps
  unfold deleteDomain getDomain
  refine Program.Within.bind ((selectDomain_within _).bind fun found => ?_) fun domain => ?_
  · cases found with
    | none => exact fun _ _ _ => by simp
    | some loaded => exact trivial
  · split
    next => exact trivial
    next live =>
      refine Program.Within.bind ?_ fun _ =>
        (revokeLiveClaim_within permits revokes _ _ _).bind fun _ =>
          (recordEvent_within permits _ (deletes _ _) _).bind fun _ => trivial
      unfold flushDomain
      split
      next => exact trivial
      next =>
        intro view
        refine ⟨.updateDomain keeps Domain.Thins.refl fun stored => ⟨rfl, rfl, ?_⟩, ?_⟩
        · intro still
          have unset : domain.deletedAt = none := by
            simpa [Domain.isDeleted] using live
          simp [Domain.isLive, Domain.isDeleted, Domain.patch, column, unset] at still
        · dsimp only
          split
          next => exact trivial
          next => exact fun _ _ _ => by simp

/-- The rest of a registration once its domain is inserted. -/
theorem registered_within (domain : Domain) (canonical : String) (fresh : Fresh)
    (cnameTarget : String) (now : Time) :
    (do
      let domain ← Program.foldEach CheckType.all domain fun domain checkType => do
        insertCheck domain.id { checkType := checkType }
        pure (domain.addCheck { checkType := checkType })
      recordEvent domain (.domainCreated canonical domain.reference) now
      let domain ← issueClaim domain fresh.claimId fresh.token cnameTarget now
      refresh domain : Sql Domain).Within (RowWise Eq Domain.Counts fun _ => True) NotLimitReached := by
  have permits := Permits.counts
  refine Program.Within.bind (Program.Within.foldEach fun domain checkType =>
    (insertCheck_within permits _ _).bind fun _ => trivial) fun domain => ?_
  refine (recordEvent_within permits _ trivial _).bind fun _ => ?_
  exact (issueClaim_within permits (fun _ _ => trivial) _ _ _ _ _).bind fun domain => refresh_within domain

theorem enforceWindow_within (change : (Database → Database) → Prop)
    (counts : DomainEvent → Bool) (window : Time) (budget : Nat) (message : String) (now : Time) :
    (enforceWindow counts window budget message now).Within change NotLimitReached := by
  refine Program.Within.bind (fun _ => trivial) fun count => ?_
  split
  next => exact fun _ _ _ _ => by simp
  next => exact trivial

theorem enforceRegistrationLimit_within (change : (Database → Database) → Prop)
    (application : Application) (now : Time) :
    (enforceRegistrationLimit application now).Within change NotLimitReached :=
  enforceWindow_within change _ _ _ _ _

end CustomDomain
