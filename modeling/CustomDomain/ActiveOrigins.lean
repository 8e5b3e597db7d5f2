import CustomDomain.ServiceRuns

/-!
# The origin an application serves

An active origin is verified, and its application is not deleted, in every state the operations of
the service reach.  The index that allows one active origin per application holds at every flush of
the operations on origins.
-/

namespace CustomDomain

open Transaction

/-- Every active origin is verified, and its application is not deleted. -/
def Database.OriginsServe (db : Database) : Prop :=
  ∀ origin ∈ db.origins, origin.isActive = true →
    origin.status = .verified ∧ db.Present origin.applicationId

section Invariant

variable {environment : Environment} {admits : Outcome → Prop} {db after : Database}

theorem Database.Present.mono {applicationId : Uuid} (present : db.Present applicationId)
    (kept : ∀ application ∈ db.applications, application.deletedAt = none →
      application ∈ after.applications) : after.Present applicationId := by
  obtain ⟨application, member, same, live⟩ := present
  exact ⟨application, kept application member live, same, live⟩

namespace Database.OriginsServe

variable (serves : db.OriginsServe)

include serves

theorem congr (applications : after.applications = db.applications)
    (origins : after.origins = db.origins) : after.OriginsServe := by
  intro origin member active
  rw [origins] at member
  obtain ⟨verified, present⟩ := serves origin member active
  exact ⟨verified, present.mono fun application stored _ => by rwa [applications]⟩

/-- An application is deleted only once its origins are switched off. -/
theorem applicationChanged (consistent : db.Consistent environment)
    {application next : Application} (member : application ∈ db.applications)
    (same : next.id = application.id)
    (archives : next.deletedAt ≠ application.deletedAt →
      ∀ origin ∈ db.origins, origin.applicationId = application.id → origin.isActive = false) :
    (db.updateApplication application.id fun _ => next).OriginsServe := by
  intro origin stored active
  obtain ⟨verified, owner, present, owns, live⟩ := serves origin stored active
  refine ⟨verified, ?_⟩
  by_cases here : owner.id = application.id
  · have rows : owner = application :=
      List.inj_on_of_nodup_map consistent.applicationsKeyed present member here
    subst rows
    have kept : next.deletedAt = owner.deletedAt := by
      by_contra changed
      have inactive := archives changed origin stored owns.symm
      rw [inactive] at active
      cases active
    exact ⟨next, List.mem_map.mpr ⟨owner, present, if_pos rfl⟩, same.trans owns, kept.trans live⟩
  · exact ⟨owner, List.mem_map.mpr ⟨owner, present, if_neg here⟩, owns, live⟩

theorem originChanged {origin next : VerifiedOrigin} (member : origin ∈ db.origins)
    (same : origin.SameEndpoint next)
    (becomes : next.isActive = true → VerifiedOrigin.Serves db origin next) :
    (db.updateOrigin origin.id fun _ => next).OriginsServe := by
  intro row stored active
  obtain ⟨before, present, rfl⟩ := List.mem_map.mp stored
  split at active
  next here =>
    rw [if_pos here, same.applicationId]
    obtain ⟨status, owner⟩ := becomes active
    constructor
    · rcases status with verified | ⟨already, kept⟩
      · exact verified
      · rw [kept]
        exact (serves origin member already).1
    · rcases owner with already | owner
      · exact (serves origin member already).2
      · exact owner
  next elsewhere =>
    rw [if_neg elsewhere]
    exact serves before present active

theorem change (consistent : db.Consistent environment)
    (change : Change environment admits db after) : after.OriginsServe := by
  cases change with
  | quiet same => exact serves.congr same.setup.applications same.setup.origins
  | registered owner registration adopted adds =>
      exact serves.congr adds.setup.applications adds.setup.origins
  | evolved member evolves holds =>
      exact serves.congr holds.setup.applications holds.setup.origins
  | applicationCreated valid unused =>
      intro origin member active
      obtain ⟨verified, present⟩ := serves origin member active
      exact ⟨verified, present.mono fun application stored _ => List.mem_append_left _ stored⟩
  | applicationChanged member same valid archives =>
      exact serves.applicationChanged consistent member same archives
  | originAdded valid inactive unused =>
      intro row member active
      rcases List.mem_append.mp member with old | new
      · exact serves row old active
      · rw [List.mem_singleton.mp new, inactive] at active
        cases active
  | originChanged member same alone becomes => exact serves.originChanged member same becomes
  | originRemoved id =>
      intro origin member active
      exact serves origin (List.mem_of_mem_filter member) active
  | credentialsChanged credentials => exact serves.congr rfl rfl

theorem changes (consistent : db.Consistent environment)
    (changes : Changes environment admits db after) : after.OriginsServe := by
  induction changes with
  | refl => exact serves
  | tail earlier step ih => exact ih.change (consistent.changes earlier) step

/-- A purge takes no application that is not deleted. -/
theorem purged (now : Time) : (purgeRows now db).OriginsServe := by
  intro origin member active
  obtain ⟨verified, present⟩ := serves origin (List.mem_of_mem_filter member) active
  refine ⟨verified, present.mono fun application stored live => ?_⟩
  rw [purgeRows, List.mem_filter]
  exact ⟨stored, by simp [live]⟩

theorem runAll (consistent : db.Consistent environment) (ops : List ServiceOp) :
    (runAll environment ops db).OriginsServe := by
  induction ops generalizing db with
  | nil => exact serves
  | cons op ops ih =>
      have step := ServiceOp.step consistent op.admits_any
      refine ih ?_ (consistent.step step)
      rcases step with changes | ⟨now, purged⟩
      · exact serves.changes consistent changes
      · have rows : op.run environment db = purgeRows now db := purged
        simp only [rows]
        exact serves.purged now

end Database.OriginsServe

/-- The active origin is the one the edge is given. -/
theorem servingOrigin_of_active (consistent : db.Consistent environment) (serves : db.OriginsServe)
    {application : Application} {origin : VerifiedOrigin} (member : origin ∈ db.origins)
    (owner : origin.applicationId = application.id) (active : origin.isActive = true) :
    servingOrigin db application = some origin := by
  have matching : (decide (origin.applicationId = application.id) && origin.isActive) = true := by
    rw [owner, active, decide_eq_true rfl, Bool.and_self]
  unfold servingOrigin
  cases found : db.origins.find? (fun origin =>
      decide (origin.applicationId = application.id) && origin.isActive) with
  | none => exact absurd matching (List.find?_eq_none.mp found origin member)
  | some first =>
      have chosen := List.find?_some found
      rw [Bool.and_eq_true, decide_eq_true_eq] at chosen
      have stored := List.mem_of_find?_eq_some found
      have alone := consistent.active first stored origin member chosen.2 active
        (chosen.1.trans owner.symm)
      have rows : first = origin :=
        List.inj_on_of_nodup_map consistent.originsKeyed stored member alone
      rw [rows, Option.filter_some, (serves origin member active).1]
      rfl

end Invariant

/-! ## The index at every flush -/

/-- The operations on the origins of an application, and its deletion. -/
def ServiceOp.OnOrigins : ServiceOp → Prop
  | .registerOrigin .. => True
  | .setOriginHostHeader .. => True
  | .recordOriginVerification .. => True
  | .activateOrigin .. => True
  | .deleteOrigin .. => True
  | .retireOrigin .. => True
  | .deleteApplication .. => True
  | _ => False

/-- What the index that allows one active origin per application raises. -/
def oneActive : ServiceError := .integrityError "ux_verified_origins_one_active"

/-- The body never violates that index. -/
abbrev KeepsIndex {α : Type} (program : Sql α) (db : Database) : Prop :=
  program.Spec db (fun _ _ => True) fun error _ => error ≠ oneActive

section Index

variable {α : Type} {db : Database}

theorem getApplication_index (id : Uuid) :
    (getApplication id).Spec db (fun application after => after = db ∧ application.id = id)
      fun error _ => error ≠ oneActive := by
  unfold getApplication
  apply Program.Spec.readThen
  split
  next => exact .of_raise (by decide)
  next application found =>
    split_ifs
    · exact .of_raise (by decide)
    · exact .of_pure ⟨rfl, by simpa using List.find?_some found⟩

theorem getOrigin_index (application : Application) (originId : Uuid) :
    (getOrigin application originId).Spec db
      (fun origin after => after = db ∧ origin ∈ db.origins ∧
        origin.applicationId = application.id) fun error _ => error ≠ oneActive := by
  unfold getOrigin
  apply Program.Spec.readThen
  split
  next => exact .of_raise (by decide)
  next origin found =>
    have chosen := List.find?_some found
    rw [Bool.and_eq_true, decide_eq_true_eq, decide_eq_true_eq] at chosen
    exact .of_pure ⟨rfl, List.mem_of_find?_eq_some found, chosen.2⟩

theorem withApplication_index {id : Uuid} {body : Application → Sql α}
    (keeps : ∀ application, KeepsIndex (body application) db) :
    KeepsIndex (withApplication id body) db := by
  unfold withApplication
  apply (getApplication_index id).bind
  rintro application after ⟨rfl, -⟩
  exact (keeps application).bind fun _ _ _ => .of_pure trivial

theorem withOrigin_index {id originId : Uuid} {body : VerifiedOrigin → Sql α}
    (keeps : ∀ origin ∈ db.origins, KeepsIndex (body origin) db) :
    KeepsIndex (withOrigin id originId body) db := by
  apply withApplication_index
  intro application
  apply (getOrigin_index application originId).bind
  rintro origin after ⟨rfl, member, -⟩
  exact keeps origin member

/-- The flush violates the index only when it leaves two active origins. -/
theorem flushOrigin_index {origin next : VerifiedOrigin}
    (alone : next.isActive = true → ∀ other ∈ db.origins,
      other.applicationId = origin.applicationId → other.id ≠ origin.id → other.isActive = false) :
    KeepsIndex (flushOrigin origin next) db := by
  unfold flushOrigin
  split
  next => exact .of_pure trivial
  next =>
    apply Program.Spec.of_write
    split_ifs with clash
    · exfalso
      obtain ⟨active, others⟩ := clash
      obtain ⟨other, member, conflict⟩ := List.any_eq_true.mp others
      simp only [Bool.and_eq_true, beq_iff_eq, bne_iff_ne] at conflict
      obtain ⟨⟨owner, elsewhere⟩, also⟩ := conflict
      rw [alone active other member owner elsewhere] at also
      cases also
    · exact .of_pure trivial
    · exact .of_raise (by decide)

theorem flushOrigin_inactive {origin next : VerifiedOrigin} (inactive : next.isActive = false) :
    KeepsIndex (flushOrigin origin next) db := by
  apply flushOrigin_index
  intro active
  rw [inactive] at active
  cases active

theorem flushOrigins_index (origins : List VerifiedOrigin) (change : VerifiedOrigin → VerifiedOrigin)
    (inactive : ∀ origin : VerifiedOrigin, (change origin).isActive = false) :
    KeepsIndex (Program.foldEach origins () fun _ origin => flushOrigin origin (change origin)) db :=
  Program.Spec.foldEach (fun _ _ => True) trivial
    fun _ origin _ _ _ => flushOrigin_inactive (inactive origin)

theorem registerOrigin_index (environment : Environment) (application : Application)
    (host scheme : String) (port : Option Int) (hostHeader : String) (fresh : FreshOrigin) :
    KeepsIndex (registerOrigin environment application host scheme port hostHeader fresh) db := by
  unfold registerOrigin
  split
  next => exact .of_raise (by simp [oneActive])
  split
  next => exact .of_raise (by simp [oneActive])
  split
  next => exact .of_raise (by simp [oneActive])
  next =>
    apply Program.Spec.requireThen
    · intro _
      apply Program.Spec.of_write
      exact .requireThen (fun _ => .of_pure trivial) fun _ => by simp [oneActive]
    · intro _
      simp [oneActive]

theorem deleteApplication_index (keyed : db.Keyed) (application : Application)
    (confirmSlug : String) (deleteDomains : Bool) (now : Time) :
    KeepsIndex (deleteApplication application confirmSlug deleteDomains now) db := by
  unfold deleteApplication
  apply Program.Spec.requireThen _ fun _ => by simp [oneActive]
  intro _
  apply Program.Spec.readThen
  apply Program.Spec.requireThen _ fun _ => by simp [oneActive]
  intro _
  apply Program.Spec.readThen
  -- The domains go first; each of these deletions keeps the domains' ids unique.
  have domains : (Program.foldEach (liveDomainIds application db) () fun _ domainId => do
      let _ ← deleteDomain application domainId now
      pure ()).Spec db (fun _ _ => True) fun error _ => error ≠ oneActive := by
    refine (Program.Spec.foldEach (fun _ (after : Database) => after.Keyed) keyed ?_).weaken
      fun _ _ _ => trivial
    intro _ domainId before _ keyed
    refine ((deleteDomain_spec keyed application domainId now).mono (fun _ _ post => post) ?_).bind ?_
    · rintro _ _ ⟨rfl, -⟩
      decide
    · rintro _ after ⟨domain, -, -, -, ⟨-, -, rfl⟩ | ⟨-, -, holds⟩⟩
      · exact .of_pure keyed
      · exact .of_pure (holds.keyed keyed)
  apply domains.bind
  intro _ buried _
  apply Program.Spec.readThen
  apply Program.Spec.readThen
  have credentials : ∀ rows : List ApiCredential, KeepsIndex (Program.foldEach rows () fun _ credential =>
      revokeCredentialRow credential now) buried := by
    intro rows
    refine Program.Spec.foldEach (fun _ _ => True) trivial fun _ credential _ _ _ => ?_
    unfold revokeCredentialRow
    split_ifs
    · exact .of_pure trivial
    · exact .of_write (.of_pure trivial)
  apply (credentials _).bind
  intro _ revoked _
  apply (flushOrigins_index _ (fun origin => { origin with isActive := false, status := .retired })
    fun _ => rfl).bind
  intro _ retired _
  apply Program.Spec.readThen
  have archived : ∀ next, KeepsIndex (flushApplication application next) retired := by
    intro next
    apply Program.Spec.of_write
    split_ifs
    · exact .of_raise (by decide)
    · exact .of_pure trivial
    · exact .of_raise (by decide)
  exact (archived _).bind fun _ _ _ => .of_pure trivial

section Stored

variable {environment : Environment} (consistent : db.Consistent environment)
  {origin : VerifiedOrigin} (member : origin ∈ db.origins)

include consistent member

/-- An operation that stores the origin without activating it. -/
theorem storeOrigin_index (next : VerifiedOrigin)
    (already : next.isActive = true → origin.isActive = true) :
    KeepsIndex (do
      flushOrigin origin next
      pure next : Sql VerifiedOrigin) db := by
  have flushed : KeepsIndex (flushOrigin origin next) db := by
    apply flushOrigin_index
    intro active other stored owner elsewhere
    by_contra also
    rw [Bool.not_eq_false] at also
    exact elsewhere (consistent.active other stored origin member also (already active) owner)
  exact flushed.bind fun _ _ _ => .of_pure trivial

theorem setOriginHostHeader_index (hostHeader : String) :
    KeepsIndex (setOriginHostHeader origin hostHeader) db := by
  unfold setOriginHostHeader
  split
  next => exact .of_raise (by simp [oneActive])
  next => exact storeOrigin_index consistent member _ fun active => active

theorem recordOriginVerification_index (failure : Option (Option String × Option String))
    (now : Time) : KeepsIndex (recordOriginVerification origin failure now) db := by
  unfold recordOriginVerification
  split
  next => exact storeOrigin_index consistent member _ fun active => active
  next => exact storeOrigin_index consistent member _ fun active => by cases active

omit member in
/-- When the origin is switched on the others are off already. -/
theorem activateOrigin_index : KeepsIndex (activateOrigin origin) db := by
  unfold activateOrigin
  apply Program.Spec.requireThen _ fun _ => by decide
  intro _
  apply Program.Spec.readThen
  have off := flushOrigins_spec (fun _ => True) consistent
    (fun other => { other with isActive := false }) (fun _ => ⟨rfl, rfl, rfl, rfl, rfl⟩)
    (fun _ => by simp [VerifiedOrigin.patch]) (fun _ => rfl)
    (db.origins.filter fun other =>
      decide (other.applicationId = origin.applicationId) && decide (other.id ≠ origin.id) &&
        other.isActive)
    (consistent.originsKeyed.sublist (List.filter_sublist.map _))
    fun other present => List.mem_of_mem_filter present
  have index := @flushOrigins_index db (db.origins.filter fun other =>
      decide (other.applicationId = origin.applicationId) && decide (other.id ≠ origin.id) &&
        other.isActive) (fun other => { other with isActive := false }) fun _ => rfl
  apply ((off.and index).mono (fun _ _ post => post) fun _ _ failed => failed.2).bind
  rintro _ after ⟨⟨-, -, actives⟩, -⟩
  have flushed : KeepsIndex (flushOrigin origin { origin with isActive := true }) after := by
    apply flushOrigin_index
    intro _ other stored owner elsewhere
    by_contra also
    rw [Bool.not_eq_false] at also
    obtain ⟨present, outside⟩ := actives other stored also
    apply outside
    apply List.mem_map_of_mem
    rw [List.mem_filter]
    exact ⟨present, by simp [owner, elsewhere, also]⟩
  exact flushed.bind fun _ _ _ => .of_pure trivial

end Stored

theorem ServiceOp.OnOrigins.keepsIndex {environment : Environment} {op : ServiceOp}
    (onOrigins : op.OnOrigins) (consistent : db.Consistent environment) :
    KeepsIndex (op.program environment) db := by
  cases op with
  | registerOrigin application host scheme port hostHeader fresh =>
      exact withApplication_index fun application =>
        registerOrigin_index environment application host scheme port hostHeader fresh
  | setOriginHostHeader application origin hostHeader =>
      exact withOrigin_index fun origin member =>
        setOriginHostHeader_index consistent member hostHeader
  | recordOriginVerification application origin failure now =>
      exact withOrigin_index fun origin member =>
        recordOriginVerification_index consistent member failure now
  | activateOrigin application origin =>
      exact withOrigin_index fun origin _ => activateOrigin_index consistent
  | deleteOrigin application origin =>
      apply withOrigin_index
      intro origin _
      exact .requireThen (fun _ => .of_write (.of_pure trivial)) fun _ => by decide
  | retireOrigin application origin =>
      exact withOrigin_index fun origin member =>
        storeOrigin_index consistent member _ fun active => by cases active
  | deleteApplication application confirmSlug deleteDomains now =>
      exact withApplication_index fun application =>
        deleteApplication_index consistent.keyed application confirmSlug deleteDomains now
  | _ => cases onOrigins

end Index

/-! ## The other applications -/

/-- The origins of the other applications. -/
def Database.otherOrigins (db : Database) (applicationId : Uuid) : List VerifiedOrigin :=
  db.origins.filter fun origin => decide (origin.applicationId ≠ applicationId)

/-- The rows of these ids belong to the application, and the others are those given. -/
structure Confined (applicationId : Uuid) (ids : List Uuid) (others : List VerifiedOrigin)
    (db : Database) : Prop where
  own : ∀ origin ∈ db.origins, origin.id ∈ ids → origin.applicationId = applicationId
  same : db.otherOrigins applicationId = others

section Frame

variable {applicationId : Uuid} {ids : List Uuid} {others : List VerifiedOrigin} {db : Database}

theorem Confined.flushOrigin (confined : Confined applicationId ids others db)
    {origin next : VerifiedOrigin} (listed : origin.id ∈ ids) :
    (CustomDomain.flushOrigin origin next).Ensures db fun _ after =>
      Confined applicationId ids others after := by
  have updated : Confined applicationId ids others
      (db.updateOrigin origin.id (origin.patch next)) := by
    constructor
    case own =>
      intro row stored inside
      obtain ⟨before, present, rfl⟩ := List.mem_map.mp stored
      split at inside
      next here =>
        rw [if_pos here]
        exact confined.own before present (here ▸ listed)
      next elsewhere =>
        rw [if_neg elsewhere]
        exact confined.own before present inside
    case same =>
      rw [← confined.same]
      have own := confined.own
      simp only [Database.otherOrigins, Database.updateOrigin]
      generalize db.origins = rows at own
      induction rows with
      | nil => rfl
      | cons row rows ih =>
          have rest := ih fun other member => own other (List.mem_cons_of_mem _ member)
          rw [List.map_cons, List.filter_cons, List.filter_cons, rest]
          by_cases here : row.id = origin.id
          · have owner := own row List.mem_cons_self (here ▸ listed)
            simp [here, VerifiedOrigin.patch, owner]
          · rw [if_neg here]
  unfold CustomDomain.flushOrigin
  split
  next => exact .of_pure confined
  next =>
    apply Program.Spec.of_write
    split_ifs
    · exact .of_raise trivial
    · exact .of_pure updated
    · exact .of_raise trivial

theorem Confined.flushOrigins (confined : Confined applicationId ids others db)
    (origins : List VerifiedOrigin) (change : VerifiedOrigin → VerifiedOrigin)
    (listed : ∀ origin ∈ origins, origin.id ∈ ids) :
    (Program.foldEach origins () fun _ origin =>
      CustomDomain.flushOrigin origin (change origin)).Ensures db fun _ after =>
        Confined applicationId ids others after := by
  induction origins generalizing db with
  | nil => exact .of_pure confined
  | cons origin origins ih =>
      apply (confined.flushOrigin (listed origin List.mem_cons_self)).bind
      intro _ after confined
      exact ih confined fun other member => listed other (List.mem_cons_of_mem _ member)

theorem activateOrigin_confined (keyed : (db.origins.map (·.id)).Nodup) {origin : VerifiedOrigin}
    (member : origin ∈ db.origins) :
    (activateOrigin origin).Ensures db fun _ after =>
      after.otherOrigins origin.applicationId = db.otherOrigins origin.applicationId := by
  unfold activateOrigin
  apply Program.Spec.requireThen _ fun _ => trivial
  intro _
  apply Program.Spec.readThen
  generalize rows : (db.origins.filter fun other =>
    decide (other.applicationId = origin.applicationId) && decide (other.id ≠ origin.id) &&
      other.isActive) = listed
  have mine : ∀ other ∈ listed,
      other ∈ db.origins ∧ other.applicationId = origin.applicationId := by
    intro other inside
    rw [← rows, List.mem_filter, Bool.and_eq_true, Bool.and_eq_true, decide_eq_true_eq] at inside
    exact ⟨inside.1, inside.2.1.1⟩
  have start : Confined origin.applicationId ((origin :: listed).map (·.id))
      (db.otherOrigins origin.applicationId) db := by
    refine ⟨fun row stored inside => ?_, rfl⟩
    obtain ⟨other, present, same⟩ := List.mem_map.mp inside
    rcases List.mem_cons.mp present with rfl | present
    · rw [List.inj_on_of_nodup_map keyed stored member same.symm]
    · obtain ⟨found, owner⟩ := mine other present
      rw [List.inj_on_of_nodup_map keyed stored found same.symm]
      exact owner
  have off : (Program.foldEach listed () fun _ other =>
      CustomDomain.flushOrigin other { other with isActive := false }).Ensures db fun _ after =>
        Confined origin.applicationId ((origin :: listed).map (·.id))
          (db.otherOrigins origin.applicationId) after :=
    start.flushOrigins listed (fun other => { other with isActive := false }) fun other inside =>
      List.mem_map_of_mem (List.mem_cons_of_mem _ inside)
  apply off.bind
  intro _ middle confined
  apply (confined.flushOrigin (List.mem_map_of_mem List.mem_cons_self)).bind
  intro _ after confined
  exact .of_pure confined.same

theorem activateOrigin_others {environment : Environment} (consistent : db.Consistent environment)
    (applicationId originId : Uuid) :
    ((ServiceOp.activateOrigin applicationId originId).run environment db).otherOrigins
      applicationId = db.otherOrigins applicationId := by
  have spec : ((ServiceOp.activateOrigin applicationId originId).program environment).Ensures db
      fun _ after => after.otherOrigins applicationId = db.otherOrigins applicationId := by
    change (withApplication _ _).Ensures _ _
    unfold withApplication
    apply ((getApplication_index applicationId).mono (fun _ _ post => post) fun _ _ _ => trivial).bind
    rintro application _ ⟨rfl, rfl⟩
    refine Program.Spec.bind (((getOrigin_index application originId).mono (fun _ _ post => post)
      fun _ _ _ => trivial).bind ?_) fun _ _ same => .of_pure same
    rintro origin _ ⟨rfl, member, owner⟩
    rw [← owner]
    exact activateOrigin_confined consistent.originsKeyed member
  unfold ServiceOp.run
  generalize (ServiceOp.activateOrigin applicationId originId).program environment = program at spec
  have kept := @Program.Spec.transact _ _ program db _
    (fun after : Database => after.otherOrigins applicationId = db.otherOrigins applicationId) rfl spec
  exact kept

end Frame

/-- After any operations of the service: an application has at most one active origin; an active
origin is verified, its application is not deleted, and it is the one that application serves; no
operation on origins violates the index at any of its flushes; and an activation leaves the origins
of the other applications as they are. -/
theorem one_verified_origin_serves (environment : Environment) (ops : List ServiceOp) :
    (∀ first ∈ (runAll environment ops {}).origins, ∀ second ∈ (runAll environment ops {}).origins,
      first.isActive = true → second.isActive = true →
        first.applicationId = second.applicationId → first = second) ∧
      (∀ origin ∈ (runAll environment ops {}).origins, origin.isActive = true →
        origin.status = .verified ∧ (runAll environment ops {}).Present origin.applicationId ∧
          ∀ application : Application, origin.applicationId = application.id →
            servingOrigin (runAll environment ops {}) application = some origin) ∧
      (∀ op : ServiceOp, op.OnOrigins →
        ((op.program environment).run (runAll environment ops {})).1 ≠ .error oneActive) ∧
      ∀ applicationId originId : Uuid,
        ((ServiceOp.activateOrigin applicationId originId).run environment
          (runAll environment ops {})).otherOrigins applicationId =
            (runAll environment ops {}).otherOrigins applicationId := by
  have empty := Database.consistent_empty environment
  have serves : (runAll environment ops {}).OriginsServe :=
    Database.OriginsServe.runAll (fun _ member => by cases member) empty ops
  have consistent := empty.runAll ops
  generalize runAll environment ops {} = db at serves consistent ⊢
  refine ⟨?_, ?_, ?_, activateOrigin_others consistent⟩
  · intro first firstMember second secondMember firstActive secondActive same
    exact List.inj_on_of_nodup_map consistent.originsKeyed firstMember secondMember
      (consistent.active first firstMember second secondMember firstActive secondActive same)
  · intro origin member active
    obtain ⟨verified, present⟩ := serves origin member active
    exact ⟨verified, present, fun application owner =>
      servingOrigin_of_active consistent serves member owner active⟩
  · intro op onOrigins raised
    have keeps : KeepsIndex (op.program environment) db := onOrigins.keepsIndex consistent
    exact keeps.failure (Prod.ext raised rfl) rfl

end CustomDomain
