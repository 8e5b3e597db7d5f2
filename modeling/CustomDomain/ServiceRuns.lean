import CustomDomain.ServiceChanges
import CustomDomain.WorkerStatements

/-!
# Runs of the service

The operations of the service as transactions that start from stored
identifiers, the states they reach from the empty database, and the proof that
each of them is a sequence of the changes of `ServiceChanges`.
-/

namespace CustomDomain

open Transaction

/-- One operation of the service, with what its caller supplies. -/
inductive ServiceOp where
  | createApplication (slug name cnameTarget : String) (id : Uuid)
  | renameApplication (application : Uuid) (name : String)
  | setRateLimits (application : Uuid) (perMinute perSecond : Option Int)
  | setDomainLimit (application : Uuid) (maxDomains : Option Int)
  | setApplicationStatus (application : Uuid) (status : ApplicationStatus)
  | setWorkspaceProbe (application : Uuid) (enabled : Bool)
  | setCnameTarget (application : Uuid) (cnameTarget : String)
  | deleteApplication (application : Uuid) (confirmSlug : String) (deleteDomains : Bool)
      (now : Time)
  | claimDomain (application : Uuid) (hostname reference : String) (fresh : Fresh) (now : Time)
  | reissueClaim (application domain claimId : Uuid) (token : String) (now : Time)
  | reissueClaimsForTarget (application : Uuid) (draw : Nat → Uuid × String) (now : Time)
  | deleteDomain (application domain : Uuid) (now : Time)
  | requestRecheck (application domain : Uuid) (requestedBy : String) (now : Time)
  | recordConnect (application : Uuid) (plan : ConnectPlan) (now : Time)
  | connectReturned (domain application : Uuid) (now : Time)
  | applyDnsOutcomes (domain : Uuid) (ownership routing : Outcome) (now : Time)
  | applyEdgeOutcomes (domain : Uuid) (certificate origin : Outcome) (now : Time)
  | importLegacyDomains (application : Uuid) (options : ImportOptions)
      (entries : List LegacyDomain) (draw : Nat → Fresh) (now : Time)
  | purgeTombstones (now : Time)
  | registerOrigin (application : Uuid) (host scheme : String) (port : Option Int)
      (hostHeader : String) (fresh : FreshOrigin)
  | setOriginHostHeader (application origin : Uuid) (hostHeader : String)
  | recordOriginVerification (application origin : Uuid)
      (failure : Option (Option String × Option String)) (now : Time)
  | activateOrigin (application origin : Uuid)
  | deleteOrigin (application origin : Uuid)
  | retireOrigin (application origin : Uuid)

/-- Load the application, then act on it. -/
def withApplication {α : Type} (id : Uuid) (body : Application → Sql α) : Sql Unit := do
  let application ← getApplication id
  let _ ← body application
  pure ()

def withOrigin {α : Type} (application origin : Uuid) (body : VerifiedOrigin → Sql α) :
    Sql Unit :=
  withApplication application fun application => do
    let origin ← getOrigin application origin
    body origin

/-- Load a live domain, then act on it if it is eligible. -/
def withLoaded {α : Type} (domainId : Uuid) (eligible : Loaded → Bool)
    (body : Domain → Sql α) : Sql Unit := do
  let found ← loadDomain domainId
  match found with
  | none => pure ()
  | some loaded =>
      if eligible loaded then
        let _ ← body loaded.domain
        pure ()
      else
        pure ()

/-- The operation as one transaction. -/
def ServiceOp.program (environment : Environment) : ServiceOp → Sql Unit
  | .createApplication slug name cnameTarget id => do
      let _ ← CustomDomain.createApplication environment slug name cnameTarget id
      pure ()
  | .renameApplication application name =>
      withApplication application fun application =>
        CustomDomain.renameApplication application name
  | .setRateLimits application perMinute perSecond =>
      withApplication application fun application =>
        CustomDomain.setRateLimits application perMinute perSecond
  | .setDomainLimit application maxDomains =>
      withApplication application fun application =>
        CustomDomain.setDomainLimit application maxDomains
  | .setApplicationStatus application status =>
      withApplication application fun application =>
        CustomDomain.setApplicationStatus application status
  | .setWorkspaceProbe application enabled =>
      withApplication application fun application =>
        CustomDomain.setWorkspaceProbe application enabled
  | .setCnameTarget application cnameTarget =>
      withApplication application fun application =>
        CustomDomain.setCnameTarget environment application cnameTarget
  | .deleteApplication application confirmSlug deleteDomains now =>
      withApplication application fun application =>
        CustomDomain.deleteApplication application confirmSlug deleteDomains now
  | .claimDomain application hostname reference fresh now =>
      withApplication application fun application =>
        CustomDomain.claimDomain environment application hostname reference fresh now
  | .reissueClaim application domain claimId token now =>
      withApplication application fun application =>
        CustomDomain.reissueClaim application domain claimId token now
  | .reissueClaimsForTarget application draw now =>
      withApplication application fun application =>
        CustomDomain.reissueClaimsForTarget application draw now
  | .deleteDomain application domain now =>
      withApplication application fun application =>
        CustomDomain.deleteDomain application domain now
  | .requestRecheck application domain requestedBy now =>
      withApplication application fun application =>
        CustomDomain.requestRecheck application domain requestedBy now
  | .recordConnect application plan now =>
      withApplication application fun application =>
        CustomDomain.recordConnect application plan now
  | .connectReturned domain application now => do
      let _ ← CustomDomain.connectReturned domain application now
      pure ()
  | .applyDnsOutcomes domain ownership routing now =>
      withLoaded domain (fun _ => true) fun domain =>
        CustomDomain.applyDnsOutcomes domain ownership routing now
  | .applyEdgeOutcomes domain certificate origin now =>
      withLoaded domain eligibleForEdgeChecks fun domain =>
        CustomDomain.applyEdgeOutcomes domain certificate origin now
  | .importLegacyDomains application options entries draw now =>
      withApplication application fun application =>
        CustomDomain.importLegacyDomains environment application options entries draw now
  | .purgeTombstones now => do
      let _ ← CustomDomain.purgeTombstones now
      pure ()
  | .registerOrigin application host scheme port hostHeader fresh =>
      withApplication application fun application =>
        CustomDomain.registerOrigin environment application host scheme port hostHeader fresh
  | .setOriginHostHeader application origin hostHeader =>
      withOrigin application origin fun origin =>
        CustomDomain.setOriginHostHeader origin hostHeader
  | .recordOriginVerification application origin failure now =>
      withOrigin application origin fun origin =>
        CustomDomain.recordOriginVerification origin failure now
  | .activateOrigin application origin =>
      withOrigin application origin fun origin => CustomDomain.activateOrigin origin
  | .deleteOrigin application origin =>
      withOrigin application origin fun origin => CustomDomain.deleteOrigin origin
  | .retireOrigin application origin =>
      withOrigin application origin fun origin => CustomDomain.retireOrigin origin

/-- The operation run atomically: rolled back when it raises. -/
def ServiceOp.run (environment : Environment) (op : ServiceOp) (db : Database) : Database :=
  (op.program environment).transact db

/-- The outcomes an operation carries satisfy `admits`. -/
def ServiceOp.Admits (admits : Outcome → Prop) : ServiceOp → Prop
  | .applyDnsOutcomes _ ownership routing _ => admits ownership ∧ admits routing
  | .applyEdgeOutcomes _ certificate origin _ => admits certificate ∧ admits origin
  | _ => True

/-- The state after a list of operations. -/
def runAll (environment : Environment) (ops : List ServiceOp) (db : Database) : Database :=
  ops.foldl (fun db op => op.run environment db) db

/-- A state the service can reach, starting with nothing stored. -/
def Reachable (environment : Environment) (db : Database) : Prop :=
  ∃ ops, runAll environment ops {} = db

/-! ## Every operation is a sequence of changes -/

section Progress

variable (environment : Environment) (admits : Outcome → Prop)

/-- The state moved on by changes that left the applications alone. -/
def Progress (db after : Database) : Prop :=
  Changes environment admits db after ∧ after.applications = db.applications

variable {environment admits} {db after : Database}

theorem Progress.refl (db : Database) : Progress environment admits db db := ⟨.refl, rfl⟩

theorem Progress.trans {third : Database} (left : Progress environment admits db after)
    (right : Progress environment admits after third) : Progress environment admits db third :=
  ⟨left.1.trans right.1, right.2.trans left.2⟩

theorem Progress.quiet (same : db.SameDomains after) : Progress environment admits db after :=
  ⟨.single (.quiet same), same.setup.applications⟩

theorem Progress.evolved {domain next : Domain} (member : domain ∈ db.domains)
    (evolves : Evolves admits db domain next) (holds : Holds db next after) :
    Progress environment admits db after :=
  ⟨.single (.evolved member evolves holds), holds.setup.applications⟩

end Progress

section Statements

variable {environment : Environment} (admits : Outcome → Prop) {db : Database}
  (consistent : db.Consistent environment)

include consistent

theorem flushApplication_changes {application : Application}
    (member : application ∈ db.applications) (next : Application)
    (same : next.id = application.id)
    (faithful : application.patch next application = next) (valid : next.Valid environment)
    (archives : next.deletedAt ≠ application.deletedAt →
      ∀ origin ∈ db.origins, origin.applicationId = application.id → origin.isActive = false) :
    (flushApplication application next).Ensures db fun _ after =>
      Changes environment admits db after := by
  unfold flushApplication
  refine .of_write ?_
  have rows : db.updateApplication application.id (application.patch next) =
      db.updateApplication application.id fun _ => next := by
    simp only [Database.updateApplication, Database.mk.injEq, and_true]
    refine List.map_congr_left fun other present => ?_
    split
    next here =>
      rw [List.inj_on_of_nodup_map consistent.applicationsKeyed present member here, faithful]
    next => rfl
  split_ifs
  · exact .of_raise trivial
  · refine .of_pure ?_
    rw [rows]
    exact .single (.applicationChanged member same valid archives)
  · exact .of_raise trivial

theorem flushOrigin_spec {origin next : VerifiedOrigin} (member : origin ∈ db.origins)
    (same : origin.SameEndpoint next) (faithful : origin.patch next origin = next)
    (serves : next.isActive = true → VerifiedOrigin.Serves db origin next) :
    (flushOrigin origin next).Ensures db fun _ after =>
      Progress environment admits db after ∧
        after = db.updateOrigin origin.id fun _ => next := by
  unfold flushOrigin
  split
  next unchanged =>
    refine .of_pure ⟨.refl db, ?_⟩
    have rows : db.updateOrigin origin.id id = db.updateOrigin origin.id fun _ => next :=
      Database.updateOrigin_congr consistent.originsKeyed member unchanged.symm
    rw [← rows]
    simp [Database.updateOrigin]
  next =>
    refine .of_write ?_
    have rows : db.updateOrigin origin.id (origin.patch next) =
        db.updateOrigin origin.id fun _ => next :=
      Database.updateOrigin_congr consistent.originsKeyed member faithful
    rw [rows]
    split_ifs with clash
    · exact .of_raise trivial
    · refine .of_pure ⟨⟨.single (.originChanged member same ?_ serves), rfl⟩, rfl⟩
      intro active other present owner elsewhere
      by_contra stillActive
      refine clash ⟨active, List.any_eq_true.mpr ⟨other, present, ?_⟩⟩
      simpa [owner, elsewhere] using stillActive
    · exact .of_raise trivial

/-- Flushing origins that are all as stored, one after the other. -/
theorem flushOrigins_spec (change : VerifiedOrigin → VerifiedOrigin)
    (same : ∀ origin : VerifiedOrigin, origin.SameEndpoint (change origin))
    (faithful : ∀ origin : VerifiedOrigin, origin.patch (change origin) origin = change origin)
    (inactive : ∀ origin : VerifiedOrigin, (change origin).isActive = false)
    (origins : List VerifiedOrigin) (distinct : (origins.map (·.id)).Nodup)
    (stored : ∀ origin ∈ origins, origin ∈ db.origins) :
    (Program.foldEach origins () fun _ origin => flushOrigin origin (change origin)).Ensures db
      fun _ after => Progress environment admits db after ∧
        (∀ origin ∈ db.origins, origin.id ∉ origins.map (·.id) → origin ∈ after.origins) ∧
        ∀ origin ∈ after.origins, origin.isActive = true →
          origin ∈ db.origins ∧ origin.id ∉ origins.map (·.id) := by
  induction origins generalizing db with
  | nil =>
      exact .of_pure ⟨.refl db, fun origin member _ => member,
        fun origin member _ => ⟨member, List.not_mem_nil⟩⟩
  | cons origin origins ih =>
      rw [List.map_cons, List.nodup_cons] at distinct
      have off : (change origin).isActive ≠ true := by simp [inactive]
      refine (flushOrigin_spec admits consistent (stored origin (by simp)) (same origin)
        (faithful origin) fun active => absurd active off).bind ?_
      rintro _ after ⟨progress, rows⟩
      have kept : ∀ other ∈ db.origins, other.id ≠ origin.id → other ∈ after.origins := by
        intro other member elsewhere
        rw [rows]
        exact List.mem_map.mpr ⟨other, member, if_neg elsewhere⟩
      refine (ih (consistent.changes progress.1) distinct.2 fun other member => ?_).weaken ?_
      · refine kept other (stored other (by simp [member])) ?_
        intro clash
        exact distinct.1 (clash ▸ List.mem_map_of_mem member)
      · rintro _ last ⟨rest, remaining, actives⟩
        refine ⟨progress.trans rest, fun other member outside => ?_, fun other member active => ?_⟩
        · rw [List.map_cons, List.mem_cons, not_or] at outside
          exact remaining other (kept other member outside.1) outside.2
        · obtain ⟨present, outside⟩ := actives other member active
          rw [rows] at present
          obtain ⟨before, old, same⟩ := List.mem_map.mp present
          split at same
          next =>
            rw [← same] at active
            exact absurd active off
          next elsewhere =>
            subst same
            rw [List.map_cons, List.mem_cons, not_or]
            exact ⟨old, elsewhere, outside⟩

/-! ### Applications -/

omit consistent in
theorem createApplication_changes (slug name cnameTarget : String) (id : Uuid) :
    (createApplication environment slug name cnameTarget id).Ensures db fun _ after =>
      Changes environment admits db after := by
  unfold createApplication
  refine .requireThen (fun _ => ?_) fun _ => trivial
  refine .requireThen (fun _ => ?_) fun _ => trivial
  split
  next => exact .of_raise trivial
  next target accepted =>
    have inserted : (insertApplication
        { id := id, slug := slug, name := PythonText.strip name, cnameTarget := target }).Returns
        db fun inserted after => inserted = true → Changes environment admits db after := by
      unfold insertApplication
      refine .of_write (.of_pure ?_)
      split_ifs with conflict
      · simp [conflict]
      · intro _
        refine .single (.applicationCreated ⟨⟨_, accepted⟩, by simp, by simp, by simp⟩ ?_)
        intro other member same
        exact conflict (List.any_eq_true.mpr ⟨other, member, by simp [same]⟩)
    refine inserted.andThen fun wasInserted after changes => ?_
    exact .requireThen (fun true => .of_pure (changes true)) fun _ => trivial

/-- An operation that ends by storing the application. -/
theorem storeApplication_changes {application : Application}
    (member : application ∈ db.applications) (next : Application)
    (same : next.id = application.id)
    (faithful : application.patch next application = next) (valid : next.Valid environment)
    (kept : next.deletedAt = application.deletedAt) :
    (do
      flushApplication application next
      pure next : Sql Application).Ensures db fun _ after =>
        Changes environment admits db after :=
  (flushApplication_changes admits consistent member next same faithful valid
    fun changed => absurd kept changed).bind fun _ _ changes => .of_pure changes

omit consistent in
theorem getApplication_spec (id : Uuid) :
    (getApplication id).Ensures db fun application after =>
      after = db ∧ application ∈ db.applications ∧ application.deletedAt = none := by
  unfold getApplication
  refine .readThen ?_
  split
  next => exact .of_raise trivial
  next application found =>
    split_ifs with deleted
    · exact .of_raise trivial
    · exact .of_pure ⟨rfl, List.mem_of_find?_eq_some found, by simpa using deleted⟩

omit consistent admits in
/-- An operation on a loaded application. -/
theorem withApplication_ensures {α : Type} {id : Uuid} {body : Application → Sql α}
    {post : Database → Prop}
    (ensures : ∀ application ∈ db.applications, application.deletedAt = none →
      (body application).Ensures db fun _ after => post after) :
    (withApplication id body).Ensures db fun _ after => post after := by
  unfold withApplication
  refine (getApplication_spec id).bind ?_
  rintro application after ⟨rfl, member, present⟩
  exact (ensures application member present).bind fun _ _ reached => .of_pure reached

omit consistent in
theorem withApplication_changes {α : Type} {id : Uuid} {body : Application → Sql α}
    (changes : ∀ application ∈ db.applications, application.deletedAt = none →
      (body application).Ensures db fun _ after => Changes environment admits db after) :
    (withApplication id body).Ensures db fun _ after => Changes environment admits db after :=
  withApplication_ensures changes

section Loaded

variable {application : Application} (member : application ∈ db.applications)

include member

theorem renameApplication_changes (name : String) :
    (renameApplication application name).Ensures db fun _ after =>
      Changes environment admits db after := by
  have valid := consistent.application application member
  unfold renameApplication
  refine .requireThen (fun _ => ?_) fun _ => trivial
  refine .requireThen (fun _ => ?_) fun _ => trivial
  exact storeApplication_changes admits consistent member
    { application with name := PythonText.strip name } rfl
    (by simp [Application.patch]) ⟨valid.target, valid.perMinute, valid.perSecond, valid.archived⟩ rfl

omit consistent member in
theorem requireRate_spec (name : String) (rate : Option Int) (db : Database) :
    (requireRate name rate).Ensures db fun _ after =>
      after = db ∧ ∀ value ∈ rate, 1 ≤ value ∧ value ≤ maxRate := by
  cases rate with
  | none => exact .of_pure ⟨rfl, by simp⟩
  | some value =>
      simp only [requireRate, Program.require]
      split_ifs with allowed
      · exact .of_pure ⟨rfl, by simpa using allowed⟩
      · exact .of_raise trivial

theorem setRateLimits_changes (perMinute perSecond : Option Int) :
    (setRateLimits application perMinute perSecond).Ensures db fun _ after =>
      Changes environment admits db after := by
  have valid := consistent.application application member
  unfold setRateLimits
  refine (requireRate_spec "per minute" perMinute db).bind ?_
  rintro _ after ⟨rfl, minute⟩
  refine (requireRate_spec "per second" perSecond after).bind ?_
  rintro _ after ⟨rfl, second⟩
  exact storeApplication_changes admits consistent member
    { application with rateLimitPerMinute := perMinute, rateLimitPerSecond := perSecond } rfl
    (by simp [Application.patch]) ⟨valid.target, minute, second, valid.archived⟩ rfl

theorem setDomainLimit_changes (maxDomains : Option Int) :
    (setDomainLimit application maxDomains).Ensures db fun _ after =>
      Changes environment admits db after := by
  have valid := consistent.application application member
  unfold setDomainLimit
  refine .requireThen (fun _ => ?_) fun _ => trivial
  exact storeApplication_changes admits consistent member
    { application with maxDomains := maxDomains } rfl
    (by simp [Application.patch]) ⟨valid.target, valid.perMinute, valid.perSecond, valid.archived⟩ rfl

theorem setApplicationStatus_changes (present : application.deletedAt = none)
    (status : ApplicationStatus) :
    (setApplicationStatus application status).Ensures db fun _ after =>
      Changes environment admits db after := by
  have valid := consistent.application application member
  unfold setApplicationStatus
  split_ifs
  · exact .of_pure .refl
  · exact storeApplication_changes admits consistent member
      { application with status := status } rfl
      (by simp [Application.patch]) ⟨valid.target, valid.perMinute, valid.perSecond, by simp [present]⟩ rfl

theorem setWorkspaceProbe_changes (enabled : Bool) :
    (setWorkspaceProbe application enabled).Ensures db fun _ after =>
      Changes environment admits db after := by
  have valid := consistent.application application member
  unfold setWorkspaceProbe
  split_ifs
  · exact .of_pure .refl
  · exact storeApplication_changes admits consistent member
      { application with workspaceProbeEnabled := enabled } rfl
      (by simp [Application.patch]) ⟨valid.target, valid.perMinute, valid.perSecond, valid.archived⟩ rfl

theorem setCnameTarget_changes (cnameTarget : String) :
    (setCnameTarget environment application cnameTarget).Ensures db fun _ after =>
      Changes environment admits db after := by
  have valid := consistent.application application member
  unfold setCnameTarget
  split
  next => exact .of_raise trivial
  next target accepted =>
    exact storeApplication_changes admits consistent member
      { application with cnameTarget := target } rfl
      (by simp [Application.patch]) ⟨⟨_, accepted⟩, valid.perMinute, valid.perSecond, valid.archived⟩ rfl

/-! ### Domains -/

theorem claimDomain_changes (hostname reference : String) (fresh : Fresh) (now : Time) :
    (claimDomain environment application hostname reference fresh now).Ensures db fun _ after =>
      Changes environment admits db after := by
  refine (claimDomain_spec consistent.keyed environment application hostname reference fresh
    now).mono ?_ fun _ _ _ => trivial
  rintro domain after ⟨registration, adds⟩
  exact .single (.registered member registration false adds)

theorem reissueClaim_progress (domainId claimId : Uuid) (token : String) (now : Time) :
    (reissueClaim application domainId claimId token now).Ensures db fun _ after =>
      Progress environment admits db after := by
  refine (reissueClaim_spec consistent.keyed consistent.sound application domainId claimId token
    now).mono ?_ fun _ _ _ => trivial
  rintro _ after ⟨domain, present, -, -, live, unseen, -, holds⟩
  exact .evolved present (.reissued live member unseen now) holds

theorem reissueClaimsForTarget_changes (draw : Nat → Uuid × String) (now : Time) :
    (reissueClaimsForTarget application draw now).Ensures db fun _ after =>
      Changes environment admits db after := by
  unfold reissueClaimsForTarget
  refine .readThen ?_
  refine Program.Spec.bind (Program.Spec.foldEach
    (fun _ after => Progress environment admits db after) (.refl db) ?_) ?_
  · rintro count domainId before _ progress
    have member' : application ∈ before.applications := by rw [progress.2]; exact member
    refine (reissueClaim_progress admits (consistent.changes progress.1) member' _ _ _ now).bind ?_
    exact fun _ _ step => .of_pure (progress.trans step)
  · exact fun _ _ progress => .of_pure progress.1

omit member in
theorem deleteDomain_progress (domainId : Uuid) (now : Time) :
    (deleteDomain application domainId now).Ensures db fun _ after =>
      Progress environment admits db after := by
  refine (deleteDomain_spec consistent.keyed application domainId now).mono ?_
    fun _ _ _ => trivial
  rintro _ after ⟨domain, present, -, -, ⟨-, -, rfl⟩ | ⟨live, -, holds⟩⟩
  · exact .refl after
  · exact .evolved present (.tombstoned live now) holds

omit member in
theorem requestRecheck_changes (domainId : Uuid) (requestedBy : String) (now : Time) :
    (requestRecheck application domainId requestedBy now).Ensures db fun _ after =>
      Changes environment admits db after := by
  refine (requestRecheck_spec consistent.keyed application domainId requestedBy now).mono ?_
    fun _ _ _ => trivial
  rintro _ after ⟨domain, present, -, -, live, -, holds⟩
  exact .single (.evolved present (.rescheduled live (domain.rechecked_rescheduled now)
    (domain.rechecked_zone now)) holds)

omit member in
theorem recordConnect_changes (plan : ConnectPlan) (now : Time) :
    (recordConnect application plan now).Ensures db fun _ after =>
      Changes environment admits db after := by
  refine (recordConnect_spec consistent.keyed application plan now).weaken ?_
  rintro _ after ⟨domain, present, -, live, holds⟩
  exact .single (.evolved present (.rescheduled live (domain.connecting_rescheduled _ now)
    (domain.connecting_zone _ now)) holds)

omit member in
theorem connectReturned_changes (domainId applicationId : Uuid) (now : Time) :
    (connectReturned domainId applicationId now).Ensures db fun _ after =>
      Changes environment admits db after := by
  refine (connectReturned_spec consistent.keyed domainId applicationId now).mono ?_
    fun _ _ never => never.elim
  rintro _ after (rfl | ⟨domain, present, -, live, holds⟩)
  · exact .refl
  · exact .single (.evolved present
      (.rescheduled live (domain.connecting_rescheduled now now) (domain.connecting_zone now now)) holds)

/-! ### Deletion of an application -/

theorem deleteApplication_changes (confirmSlug : String) (deleteDomains : Bool) (now : Time) :
    (deleteApplication application confirmSlug deleteDomains now).Ensures db fun _ after =>
      Changes environment admits db after := by
  unfold deleteApplication
  refine .requireThen (fun _ => ?_) fun _ => trivial
  refine .readThen (.requireThen (fun _ => ?_) fun _ => trivial)
  refine .readThen ?_
  refine Program.Spec.bind (Program.Spec.foldEach
    (fun _ after => Progress environment admits db after) (.refl db) ?_) ?_
  · rintro _ domainId before _ progress
    refine (deleteDomain_progress admits (consistent.changes progress.1) domainId now).bind ?_
    exact fun _ _ step => .of_pure (progress.trans step)
  rintro _ buried progress
  refine .readThen (.readThen ?_)
  -- Revoking credentials leaves the rows the rest of the deletion needs alone.
  refine Program.Spec.bind (Program.Spec.foldEach (fun _ (after : Database) =>
    Progress environment admits db after ∧ after.origins = buried.origins) ⟨progress, rfl⟩ ?_) ?_
  · rintro _ credential before _ ⟨progress, origins⟩
    unfold revokeCredentialRow
    split_ifs
    · exact .of_pure ⟨progress, origins⟩
    · exact .of_write (.of_pure ⟨progress.trans ⟨.single (.credentialsChanged _), rfl⟩, origins⟩)
  rintro _ revoked ⟨progress, origins⟩
  have consistent' := consistent.changes progress.1
  refine (flushOrigins_spec admits consistent' (fun origin =>
    { origin with isActive := false, status := .retired }) (fun _ => ⟨rfl, rfl, rfl, rfl, rfl⟩)
    (fun _ => by simp [VerifiedOrigin.patch]) (fun _ => rfl) _ ?_ ?_).bind ?_
  · rw [← origins]
    exact consistent'.originsKeyed.sublist (List.filter_sublist.map _)
  · intro origin present
    rw [origins]
    exact List.mem_of_mem_filter present
  rintro _ retired ⟨step, -, actives⟩
  have progress := progress.trans step
  refine .readThen ?_
  have idle : ∀ origin ∈ retired.origins, origin.applicationId = application.id →
      origin.isActive = false := by
    intro origin present owner
    by_contra active
    obtain ⟨earlier, outside⟩ := actives origin present (by simpa using active)
    rw [origins] at earlier
    exact outside (List.mem_map_of_mem (List.mem_filter.mpr ⟨earlier, by simpa using owner⟩))
  have valid := consistent.application application member
  have stored : application ∈ retired.applications := by rw [progress.2]; exact member
  refine (flushApplication_changes admits (consistent.changes progress.1) stored (application.archived _ now) rfl
    (by simp [Application.patch, Application.archived])
    ⟨valid.target, valid.perMinute, valid.perSecond, fun _ => rfl⟩ fun _ => idle).bind ?_
  exact fun _ _ changes => .of_pure (progress.1.trans changes)

end Loaded

/-! ### Origins -/

omit consistent in
theorem insertOrigin_changes {origin : VerifiedOrigin} (valid : origin.Valid environment)
    (inactive : origin.isActive = false) :
    (insertOrigin origin).Returns db fun inserted after =>
      inserted = true → Changes environment admits db after := by
  unfold insertOrigin
  refine .of_write (.of_pure ?_)
  split_ifs with conflict
  · simp [conflict]
  · intro _
    refine .single (.originAdded valid inactive fun other member same => ?_)
    rw [Bool.or_eq_true, not_or] at conflict
    exact conflict.2 (List.any_eq_true.mpr ⟨other, member, by simp [same]⟩)

omit consistent in
theorem registerOrigin_changes (application : Application) (host scheme : String)
    (port : Option Int) (hostHeader : String) (fresh : FreshOrigin) :
    (registerOrigin environment application host scheme port hostHeader fresh).Ensures db
      fun _ after => Changes environment admits db after := by
  unfold registerOrigin
  split
  next => exact .of_raise trivial
  split
  next => exact .of_raise trivial
  next scheme known =>
    split
    next => exact .of_raise trivial
    next canonical accepted =>
      refine .requireThen (fun range => ?_) fun _ => trivial
      refine (insertOrigin_changes admits ⟨⟨_, accepted⟩, ?_⟩ rfl).andThen ?_
      · simp only
        omega
      · intro inserted after changes
        exact .requireThen (fun true => .of_pure (changes true)) fun _ => trivial

omit consistent admits in
theorem getOrigin_spec (application : Application) (originId : Uuid) :
    (getOrigin application originId).Ensures db fun origin after =>
      after = db ∧ origin ∈ db.origins ∧ origin.applicationId = application.id := by
  unfold getOrigin
  refine .readThen ?_
  split
  next => exact .of_raise trivial
  next origin found =>
    have chosen := List.find?_some found
    rw [Bool.and_eq_true, decide_eq_true_eq, decide_eq_true_eq] at chosen
    exact .of_pure ⟨rfl, List.mem_of_find?_eq_some found, chosen.2⟩

omit consistent in
theorem withOrigin_changes {α : Type} {applicationId originId : Uuid}
    {body : VerifiedOrigin → Sql α}
    (changes : ∀ origin ∈ db.origins, db.Present origin.applicationId →
      (body origin).Ensures db fun _ after => Changes environment admits db after) :
    (withOrigin applicationId originId body).Ensures db fun _ after =>
      Changes environment admits db after := by
  refine withApplication_changes admits fun application stored present => ?_
  refine (getOrigin_spec application originId).bind ?_
  rintro origin after ⟨rfl, member, owner⟩
  exact changes origin member ⟨application, stored, owner.symm, present⟩

/-- An operation that ends by storing the origin. -/
theorem storeOrigin_changes {origin : VerifiedOrigin} (member : origin ∈ db.origins)
    (next : VerifiedOrigin) (same : origin.SameEndpoint next)
    (faithful : origin.patch next origin = next)
    (serves : next.isActive = true → VerifiedOrigin.Serves db origin next) :
    (do
      flushOrigin origin next
      pure next : Sql VerifiedOrigin).Ensures db fun _ after =>
        Changes environment admits db after :=
  (flushOrigin_spec admits consistent member same faithful serves).bind
    fun _ _ stored => .of_pure stored.1.1

section LoadedOrigin

variable {origin : VerifiedOrigin} (member : origin ∈ db.origins)

include member

theorem setOriginHostHeader_changes (hostHeader : String) :
    (setOriginHostHeader origin hostHeader).Ensures db fun _ after =>
      Changes environment admits db after := by
  unfold setOriginHostHeader
  split
  next => exact .of_raise trivial
  next mode known =>
    exact storeOrigin_changes admits consistent member { origin with hostHeader := mode }
      ⟨rfl, rfl, rfl, rfl, rfl⟩ (by simp [VerifiedOrigin.patch])
      fun active => ⟨.inr ⟨active, rfl⟩, .inl active⟩

theorem recordOriginVerification_changes (failure : Option (Option String × Option String))
    (now : Time) :
    (recordOriginVerification origin failure now).Ensures db fun _ after =>
      Changes environment admits db after := by
  unfold recordOriginVerification
  split
  next =>
    exact storeOrigin_changes admits consistent member _ ⟨rfl, rfl, rfl, rfl, rfl⟩
      (by simp [VerifiedOrigin.patch]) fun active => ⟨.inl rfl, .inl active⟩
  next =>
    exact storeOrigin_changes admits consistent member _ ⟨rfl, rfl, rfl, rfl, rfl⟩
      (by simp [VerifiedOrigin.patch]) fun active => by cases active

theorem activateOrigin_changes (present : db.Present origin.applicationId) :
    (activateOrigin origin).Ensures db fun _ after =>
      Changes environment admits db after := by
  unfold activateOrigin
  refine .requireThen (fun verified => ?_) fun _ => trivial
  refine .readThen ?_
  refine (flushOrigins_spec admits consistent (fun other => { other with isActive := false })
    (fun _ => ⟨rfl, rfl, rfl, rfl, rfl⟩) (fun _ => by simp [VerifiedOrigin.patch]) (fun _ => rfl) _
    (consistent.originsKeyed.sublist (List.filter_sublist.map _))
    (fun other present => List.mem_of_mem_filter present)).bind ?_
  rintro _ after ⟨progress, kept, -⟩
  have present' : after.Present origin.applicationId := by
    rw [Database.Present, progress.2]
    exact present
  have member' : origin ∈ after.origins := by
    refine kept origin member ?_
    intro inside
    obtain ⟨other, present, same⟩ := List.mem_map.mp inside
    have elsewhere := (List.mem_filter.mp present).2
    simp [same] at elsewhere
  exact (storeOrigin_changes admits (consistent.changes progress.1) member'
    { origin with isActive := true } ⟨rfl, rfl, rfl, rfl, rfl⟩
    (by simp [VerifiedOrigin.patch]) fun _ => ⟨.inl verified, .inr present'⟩).weaken
      fun _ _ changes => progress.1.trans changes

omit consistent member in
theorem deleteOrigin_changes :
    (deleteOrigin origin).Ensures db fun _ after => Changes environment admits db after := by
  unfold deleteOrigin
  refine .requireThen (fun _ => ?_) fun _ => trivial
  exact .of_write (.of_pure (.single (.originRemoved origin.id)))

theorem retireOrigin_changes :
    (retireOrigin origin).Ensures db fun _ after => Changes environment admits db after := by
  unfold retireOrigin
  exact storeOrigin_changes admits consistent member
    { origin with isActive := false, status := .retired } ⟨rfl, rfl, rfl, rfl, rfl⟩
    (by simp [VerifiedOrigin.patch]) fun active => by cases active

end LoadedOrigin

/-! ### The worker -/

omit consistent admits in
/-- What the worker does with a live domain it has loaded. -/
theorem withLoaded_ensures {α : Type} {domainId : Uuid} {eligible : Loaded → Bool}
    {body : Domain → Sql α} {post : Database → Prop} (unchanged : post db)
    (ensures : ∀ domain ∈ db.domains, domain.isLive = true →
      (body domain).Ensures db fun _ after => post after) :
    (withLoaded domainId eligible body).Ensures db fun _ after => post after := by
  unfold withLoaded
  refine (loadDomain_spec domainId db).andThen ?_
  rintro found after ⟨rfl, facts⟩
  cases found with
  | none => exact .of_pure unchanged
  | some loaded =>
      obtain ⟨⟨member, -, live, -⟩, -⟩ := facts loaded rfl
      simp only
      split_ifs
      · exact (ensures loaded.domain member live).bind fun _ _ reached => .of_pure reached
      · exact .of_pure unchanged

theorem applyDnsOutcomes_changes {domain : Domain} (member : domain ∈ db.domains)
    (live : domain.isLive = true) {ownership routing : Outcome}
    (admitted : admits ownership ∧ admits routing) (now : Time) :
    (applyDnsOutcomes domain ownership routing now).Ensures db fun _ after =>
      Changes environment admits db after :=
  (applyDnsOutcomes_spec (Holds.self consistent.keyed member) (consistent.sound domain member)
    live ownership routing now).mono
    (fun _ _ becomes => .single (.evolved member (.dns live admitted now) becomes.2))
    fun _ _ never => never.elim

theorem applyEdgeOutcomes_changes {domain : Domain} (member : domain ∈ db.domains)
    (live : domain.isLive = true) {certificate origin : Outcome}
    (admitted : admits certificate ∧ admits origin) (now : Time) :
    (applyEdgeOutcomes domain certificate origin now).Ensures db fun _ after =>
      Changes environment admits db after :=
  (applyEdgeOutcomes_spec (Holds.self consistent.keyed member) (consistent.sound domain member)
    live certificate origin now).mono
    (fun _ _ becomes => .single (.evolved member (.edge live admitted now) becomes.2))
    fun _ _ never => never.elim

/-! ### The import -/

omit consistent admits in
/-- What follows a registration in an import. -/
theorem adoptDomain_spec {base : Database} {domain : Domain} (holds : Holds base domain db)
    (sound : domain.Sound) (live : domain.isLive = true) (new : domain.status = .pendingDns)
    (upstream : Option String) (grandfather : Bool) (now : Time) :
    (adoptDomain domain upstream grandfather now).Returns db
      (Becomes base (if grandfather then domain.adopted now else domain)) := by
  obtain ⟨claim, single⟩ := (sound.live live).2
  unfold adoptDomain
  refine (recordEvent_holds holds _ _ _).bind fun _ after holds => ?_
  split_ifs
  · refine (markClaimVerified_spec holds live single .legacyImport now).bind ?_
    rintro _ after ⟨rfl, holds⟩
    have live : (domain.verified .legacyImport now).isLive = true := by
      rw [Domain.verified, Domain.changeClaim_isLive, live]
    refine (recordCheck_spec holds live .ownership _).bind ?_
    rintro _ after ⟨rfl, holds⟩
    have status : ((domain.verified .legacyImport now).observed .ownership
        { status := .passing
          details := some { fields := [("source", ["legacy_import"])] }
          observedAt := now }).status = .pendingDns := by
      rw [Domain.observed_status, Domain.verified, Domain.changeClaim_status, new]
      rfl
    refine move_spec holds (transitionRefusal_of_move ?_ ?_ (by decide)) ?_ _ _
    · rw [(Domain.observed_kept _ _ _).isLive, live]
    · rw [status]
      decide
    · rw [status]
      decide
  · exact .of_pure ⟨rfl, holds⟩

omit admits in
theorem attemptClaim_spec (application : Application) (hostname reference : String)
    (fresh : Fresh) (now : Time) :
    (attemptClaim environment application hostname reference fresh now).Ensures db
      fun attempt after =>
        match attempt with
        | .registered domain =>
            Registration environment application hostname reference fresh now db domain ∧
              Adds db domain after
        | _ => db.SameDomains after := by
  unfold attemptClaim
  have claimed := (claimDomain_spec consistent.keyed environment application hostname reference
    fresh now).mono (fun _ _ post => post) fun error after refused =>
      (.inr refused : error = .dataError ∨ (∃ constraint, error = .integrityError constraint) ∨
        db.SameDomains after)
  refine Program.Spec.tryCatch (claimed.bind fun domain after registered =>
    .requireThen (fun _ => .of_pure registered) fun _ => .inl rfl) ?_
  rintro error after (rfl | ⟨constraint, rfl⟩ | same)
  · exact .of_raise trivial
  · exact .of_raise trivial
  · split
    next => exact .of_pure same
    next =>
      split_ifs
      · exact .of_pure same
      · exact .of_raise trivial
    next => exact .of_raise trivial

/-- A registration of the import, with what follows it. -/
theorem adoptDomain_progress {application : Application}
    (member : application ∈ db.applications) {hostname reference : String} {fresh : Fresh}
    {now : Time} {domain : Domain} {after : Database}
    (registration : Registration environment application hostname reference fresh now db domain)
    (adds : Adds db domain after) (upstream : Option String) (grandfather : Bool) :
    (adoptDomain domain upstream grandfather now).Ensures after fun _ last =>
      Progress environment admits db last := by
  have consistent' := consistent.registered member registration false adds
  have stored : domain ∈ after.domains := by rw [adds.domains]; simp
  have live : domain.isLive = true := by rw [registration.eq]; rfl
  have new : domain.status = .pendingDns := by rw [registration.eq]; rfl
  have id : domain.id = fresh.domainId := by rw [registration.eq]; rfl
  refine (adoptDomain_spec (Holds.self consistent'.keyed stored)
    (consistent'.sound domain stored) live new upstream grandfather now).mono ?_
    fun _ _ never => never.elim
  rintro _ last ⟨-, holds⟩
  have sameId : (if grandfather then domain.adopted now else domain).id = domain.id := by
    split
    next => exact (domain.adopted_alike now).id
    next => rfl
  refine ⟨.single (.registered member registration grandfather ⟨adds.setup.trans holds.setup,
    holds.appended adds.domains sameId.symm ?_⟩), (adds.setup.trans holds.setup).applications⟩
  rw [sameId, id]
  exact registration.unused

theorem importEntry_progress {application : Application}
    (member : application ∈ db.applications) (options : ImportOptions) (report : ImportReport)
    (entry : LegacyDomain) (fresh : Fresh) (now : Time) :
    (importEntry environment application options report entry fresh now).Ensures db
      fun _ after => Progress environment admits db after := by
  unfold importEntry
  split
  next => exact .of_pure (.refl db)
  next hostname accepted =>
    split
    next => exact .of_pure (.refl db)
    next reference found =>
      refine (attemptClaim_spec consistent application hostname reference fresh now).bind ?_
      intro attempt after attempted
      cases attempt with
      | registered domain =>
          exact (adoptDomain_progress admits consistent member attempted.1 attempted.2
            entry.upstream options.grandfather).bind fun _ _ progress => .of_pure progress
      | limitReached => exact .of_pure (.quiet attempted)
      | alreadyClaimed =>
          refine (findLiveByHostname_reads environment hostname after).bind ?_
          rintro live last rfl
          cases live with
          | none => exact .of_pure (.quiet attempted)
          | some live =>
              simp only
              split_ifs
              · exact .of_pure (.quiet attempted)
              · exact .of_pure (.quiet attempted)

theorem importLegacyDomains_changes {application : Application}
    (member : application ∈ db.applications) (options : ImportOptions)
    (entries : List LegacyDomain) (draw : Nat → Fresh) (now : Time) :
    (importLegacyDomains environment application options entries draw now).Ensures db
      fun _ after => Changes environment admits db after := by
  unfold importLegacyDomains
  refine (Program.Spec.foldEach
    (fun _ after => Progress environment admits db after) (.refl db) ?_).weaken
      fun _ _ progress => progress.1
  rintro report entry before _ progress
  have member' : application ∈ before.applications := by rw [progress.2]; exact member
  exact (importEntry_progress admits (consistent.changes progress.1) member' options report
    entry.1 (draw entry.2) now).weaken fun _ _ step => progress.trans step

end Statements

theorem ServiceOp.run_purge (environment : Environment) (now : Time) (db : Database) :
    (ServiceOp.purgeTombstones now).run environment db = purgeRows now db := by
  have ran : ((ServiceOp.purgeTombstones now).program environment).run db =
      (.ok (), purgeRows now db) := by
    change Program.run (CustomDomain.purgeTombstones now >>= fun _ => pure ()) db = _
    rw [Program.run_bind, purgeTombstones_run]
    rfl
  unfold ServiceOp.run Program.transact
  rw [ran]

/-- Each operation of the service is a sequence of changes, or a purge. -/
theorem ServiceOp.changes {environment : Environment} {admits : Outcome → Prop} {db : Database}
    (consistent : db.Consistent environment) {op : ServiceOp} (admitted : op.Admits admits) :
    Changes environment admits db (op.run environment db) ∨ ∃ now, op = .purgeTombstones now := by
  have ofChanges : ((op.program environment).Ensures db fun _ after =>
      Changes environment admits db after) →
      Changes environment admits db (op.run environment db) ∨
        ∃ now, op = .purgeTombstones now :=
    fun spec => .inl (spec.transact .refl)
  cases op with
  | createApplication slug name cnameTarget id =>
      refine ofChanges ?_
      exact (createApplication_changes admits slug name cnameTarget id).bind
        fun _ _ changes => .of_pure changes
  | renameApplication application name =>
      refine ofChanges ?_
      exact withApplication_changes admits fun application member _ =>
        renameApplication_changes admits consistent member name
  | setRateLimits application perMinute perSecond =>
      refine ofChanges ?_
      exact withApplication_changes admits fun application member _ =>
        setRateLimits_changes admits consistent member perMinute perSecond
  | setDomainLimit application maxDomains =>
      refine ofChanges ?_
      exact withApplication_changes admits fun application member _ =>
        setDomainLimit_changes admits consistent member maxDomains
  | setApplicationStatus application status =>
      refine ofChanges ?_
      exact withApplication_changes admits fun application member present =>
        setApplicationStatus_changes admits consistent member present status
  | setWorkspaceProbe application enabled =>
      refine ofChanges ?_
      exact withApplication_changes admits fun application member _ =>
        setWorkspaceProbe_changes admits consistent member enabled
  | setCnameTarget application cnameTarget =>
      refine ofChanges ?_
      exact withApplication_changes admits fun application member _ =>
        setCnameTarget_changes admits consistent member cnameTarget
  | deleteApplication application confirmSlug deleteDomains now =>
      refine ofChanges ?_
      exact withApplication_changes admits fun application member _ =>
        deleteApplication_changes admits consistent member confirmSlug deleteDomains now
  | claimDomain application hostname reference fresh now =>
      refine ofChanges ?_
      exact withApplication_changes admits fun application member _ =>
        claimDomain_changes admits consistent member hostname reference fresh now
  | reissueClaim application domain claimId token now =>
      refine ofChanges ?_
      exact withApplication_changes admits fun application member _ =>
        (reissueClaim_progress admits consistent member domain claimId token now).weaken
          fun _ _ progress => progress.1
  | reissueClaimsForTarget application draw now =>
      refine ofChanges ?_
      exact withApplication_changes admits fun application member _ =>
        reissueClaimsForTarget_changes admits consistent member draw now
  | deleteDomain application domain now =>
      refine ofChanges ?_
      exact withApplication_changes admits fun application _ _ =>
        (deleteDomain_progress admits consistent domain now).weaken
          fun _ _ progress => progress.1
  | requestRecheck application domain requestedBy now =>
      refine ofChanges ?_
      exact withApplication_changes admits fun application _ _ =>
        requestRecheck_changes admits consistent domain requestedBy now
  | recordConnect application plan now =>
      refine ofChanges ?_
      exact withApplication_changes admits fun application _ _ =>
        recordConnect_changes admits consistent plan now
  | connectReturned domain application now =>
      refine ofChanges ?_
      exact (connectReturned_changes admits consistent domain application now).bind
        fun _ _ changes => .of_pure changes
  | applyDnsOutcomes domain ownership routing now =>
      refine ofChanges ?_
      exact withLoaded_ensures .refl fun domain member live =>
        applyDnsOutcomes_changes admits consistent member live admitted now
  | applyEdgeOutcomes domain certificate origin now =>
      refine ofChanges ?_
      exact withLoaded_ensures .refl fun domain member live =>
        applyEdgeOutcomes_changes admits consistent member live admitted now
  | importLegacyDomains application options entries draw now =>
      refine ofChanges ?_
      exact withApplication_changes admits fun application member _ =>
        importLegacyDomains_changes admits consistent member options entries draw now
  | purgeTombstones now => exact .inr ⟨now, rfl⟩
  | registerOrigin application host scheme port hostHeader fresh =>
      refine ofChanges ?_
      exact withApplication_changes admits fun application _ _ =>
        registerOrigin_changes admits application host scheme port hostHeader fresh
  | setOriginHostHeader application origin hostHeader =>
      refine ofChanges ?_
      exact withOrigin_changes admits fun origin member _ =>
        setOriginHostHeader_changes admits consistent member hostHeader
  | recordOriginVerification application origin failure now =>
      refine ofChanges ?_
      exact withOrigin_changes admits fun origin member _ =>
        recordOriginVerification_changes admits consistent member failure now
  | activateOrigin application origin =>
      refine ofChanges ?_
      exact withOrigin_changes admits fun origin member present =>
        activateOrigin_changes admits consistent member present
  | deleteOrigin application origin =>
      refine ofChanges ?_
      exact withOrigin_changes admits fun origin _ _ => deleteOrigin_changes admits
  | retireOrigin application origin =>
      refine ofChanges ?_
      exact withOrigin_changes admits fun origin member _ =>
        retireOrigin_changes admits consistent member

theorem ServiceOp.step {environment : Environment} {admits : Outcome → Prop} {db : Database}
    (consistent : db.Consistent environment) {op : ServiceOp} (admitted : op.Admits admits) :
    ServiceStep environment admits db (op.run environment db) := by
  rcases ServiceOp.changes consistent admitted with changes | ⟨now, rfl⟩
  · exact .inl changes
  · exact .inr ⟨now, run_purge environment now db⟩

/-- A run is a sequence of such steps. -/
theorem runAll_steps {environment : Environment} {admits : Outcome → Prop} {db : Database}
    (consistent : db.Consistent environment) {ops : List ServiceOp}
    (admitted : ∀ op ∈ ops, op.Admits admits) :
    Relation.ReflTransGen (ServiceStep environment admits) db (runAll environment ops db) := by
  induction ops generalizing db with
  | nil => exact .refl
  | cons op ops ih =>
      have first := ServiceOp.step consistent (admitted op (by simp))
      have rest := ih (consistent.step first) fun op member => admitted op (by simp [member])
      exact rest.head first

theorem ServiceOp.admits_any (op : ServiceOp) : op.Admits fun _ => True := by
  cases op <;> simp [ServiceOp.Admits]

theorem Database.Consistent.runAll {environment : Environment} {db : Database}
    (consistent : db.Consistent environment) (ops : List ServiceOp) :
    (runAll environment ops db).Consistent environment := by
  have steps := runAll_steps consistent fun op (_ : op ∈ ops) => op.admits_any
  generalize CustomDomain.runAll environment ops db = last at steps
  induction steps with
  | refl => exact consistent
  | tail _ step ih => exact ih.step step

theorem Reachable.consistent {environment : Environment} {db : Database}
    (reachable : Reachable environment db) : db.Consistent environment := by
  obtain ⟨ops, rfl⟩ := reachable
  exact (Database.consistent_empty environment).runAll ops

end CustomDomain
