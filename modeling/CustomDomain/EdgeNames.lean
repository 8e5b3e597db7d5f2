import CustomDomain.CanonicalNames
import CustomDomain.EdgeChecks
import CustomDomain.LegacyImportRuns
import CustomDomain.TargetReissue

/-!
# The edge's own names

`portal_hosts` of `app/edge/config.py` collects the names that the edge serves the portal on,
`is_edge_name` of `app/services/edge_checks.py` looks one up, and `tls_ask` of `app/v1/internal.py`
decides on its certificate.
-/

namespace CustomDomain

open Transaction PythonText

/-- `_edge_hostname`: `EDGE_HOSTNAME` as the settings keep it. -/
def readEdgeHostname (tables : NameTables) (value : String) : Except String (Option String) :=
  let value := strip value
  if value = "" then .ok none
  else
    match canonicalize tables value true with
    | .ok name => .ok (some name)
    | .error refused => .error ("EDGE_HOSTNAME is not a valid hostname: " ++ refused.message)

/-- `names.append(name)` where it is not there yet. -/
def include_ (names : List String) (name : String) : List String :=
  if name ∈ names then names else names ++ [name]

/-- `portal_hosts`, with the `edge_hostname` of the settings, where there are any. -/
def portalHosts (edgeHostname : Option String) (view : Database) : List String :=
  let applications := (view.applications.filter fun application =>
    decide (application.status = .active)).mergeSort fun first second =>
      decide (first.slug ≤ second.slug)
  let own := match edgeHostname with
    | some name => if name ≠ "" then [name] else []
    | none => []
  (applications.foldl (fun names application => (edgeNames application view).foldl include_ names)
    own).mergeSort fun first second => decide (first ≤ second)

/-- `is_edge_name`. -/
def isEdgeName (tables : NameTables) (edgeHostname : Option String) (hostname : String) : Sql Bool :=
  match canonicalize tables hostname true with
  | .error _ => pure false
  | .ok canonical =>
      if edgeHostname = some canonical then pure true
      else do
        let current ← .read fun view => view.applications.any fun application =>
          application.cnameTarget == canonical && application.status == .active
        if current then pure true
        else
          .read fun view => view.domains.any fun domain =>
            domain.isLive &&
              (view.applications.any fun application =>
                application.id == domain.applicationId && application.status == .active) &&
              domain.claims.any fun claim =>
                claim.cnameTarget == canonical && claim.status != .revoked

/-- `tls_ask`: the status code; the length of the name is checked before. -/
def tlsAsk (environment : Environment) (trusted : Bool) (edgeHostname : Option String)
    (domain : String) : Sql Nat :=
  if domain.length < 1 ∨ 253 < domain.length then pure 422
  else if trusted = false then pure 403
  else do
    let row ← (do
      let found ← findLiveByHostname environment domain
      pure (some found)).tryCatch fun
        | .invalidHostname _ => pure none
        | error => .raise error
    match row with
    | none => pure 403
    | some row =>
        if row.any certificateAuthorized then pure 200
        else do
          let edge ← isEdgeName environment.tables edgeHostname domain
          pure (if edge then 200 else 403)

/-! ## The names -/

theorem mem_foldl_include (name : String) (more names : List String) :
    name ∈ more.foldl include_ names ↔ name ∈ names ∨ name ∈ more := by
  induction more generalizing names with
  | nil => simp
  | cons first more ih =>
      have once : name ∈ include_ names first ↔ name ∈ names ∨ name = first := by
        unfold include_
        split
        next known =>
          constructor
          · exact .inl
          · rintro (old | rfl)
            · exact old
            · exact known
        next => rw [List.mem_append, List.mem_singleton]
      rw [List.foldl_cons, ih, once, List.mem_cons, or_assoc]

theorem mem_edgeNames {application : Application} {db : Database} {name : String} :
    name ∈ edgeNames application db ↔ name = application.cnameTarget ∨
      ∃ domain ∈ db.domains, domain.applicationId = application.id ∧ domain.isLive = true ∧
        ∃ claim ∈ domain.claims, claim.status ≠ .revoked ∧ claim.cnameTarget = name := by
  have folded := mem_foldl_include name
    ((db.domains.filter fun domain =>
      decide (domain.applicationId = application.id) && domain.isLive).flatMap fun domain =>
        domain.liveClaims.map (·.cnameTarget)) [application.cnameTarget]
  refine folded.trans ?_
  simp only [List.mem_singleton, List.mem_flatMap, List.mem_filter, Bool.and_eq_true,
    decide_eq_true_eq, List.mem_map, Domain.liveClaims, and_assoc]

theorem mem_portalHosts {edgeHostname : Option String} {db : Database} {name : String} :
    name ∈ portalHosts edgeHostname db ↔ (edgeHostname = some name ∧ name ≠ "") ∨
      ∃ application ∈ db.applications, application.status = .active ∧
        name ∈ edgeNames application db := by
  have folded : ∀ (applications : List Application) (names : List String),
      name ∈ applications.foldl
          (fun names application => (edgeNames application db).foldl include_ names) names ↔
        name ∈ names ∨ ∃ application ∈ applications, name ∈ edgeNames application db := by
    intro applications
    induction applications with
    | nil => simp
    | cons application applications ih =>
        intro names
        rw [List.foldl_cons, ih, mem_foldl_include, List.exists_mem_cons_iff, or_assoc]
  unfold portalHosts
  dsimp only
  rw [List.mem_mergeSort, folded]
  refine or_congr ?_ ?_
  · cases edgeHostname with
    | none => simp
    | some own =>
        by_cases empty : own = ""
        · subst empty
          simp [eq_comm]
        · simp only [empty, ne_eq, not_false_eq_true, if_true, List.mem_singleton, Option.some.injEq]
          constructor
          · rintro rfl
            exact ⟨rfl, empty⟩
          · exact fun both => both.1.symm
  · simp only [List.mem_mergeSort, List.mem_filter, decide_eq_true_eq, and_assoc]

section Names

variable {environment : Environment} {db : Database} {edgeHostname : Option String}

/-- The edge hostname of the settings is canonical. -/
theorem readEdgeHostname_canonical {tables : NameTables} {value : String}
    (settings : readEdgeHostname tables value = .ok edgeHostname) :
    ∀ name ∈ edgeHostname, ∃ raw, canonicalize tables raw true = .ok name := by
  intro name member
  unfold readEdgeHostname at settings
  dsimp only at settings
  split at settings
  next =>
    cases settings
    cases member
  next =>
    split at settings
    next own accepted =>
      cases settings
      cases member
      exact ⟨_, accepted⟩
    next => cases settings

/-- Every name is canonical. -/
theorem portalHosts_canonical (consistent : db.Consistent environment)
    (own : ∀ name ∈ edgeHostname, IsCanonical environment true name) :
    ∀ name ∈ portalHosts edgeHostname db, IsCanonical environment true name := by
  intro name member
  rcases mem_portalHosts.mp member with ⟨edge, -⟩ | ⟨application, stored, -, used⟩
  · exact own name edge
  · rcases mem_edgeNames.mp used with rfl | ⟨domain, known, -, -, claim, inside, -, rfl⟩
    · exact (consistent.application application stored).target
    · exact consistent.target domain known claim inside

theorem isEdgeName_canonical {tables : NameTables} {raw name : String}
    (accepted : canonicalize tables raw true = .ok name) (named : name ≠ "") :
    (isEdgeName tables edgeHostname raw).run db =
      (.ok (decide (name ∈ portalHosts edgeHostname db)), db) := by
  have active : (db.applications.any fun application =>
      application.cnameTarget == name && application.status == .active) = true ↔
      ∃ application ∈ db.applications, application.status = .active ∧
        name = application.cnameTarget := by
    rw [List.any_eq_true]
    refine exists_congr fun application => and_congr_right fun _ => ?_
    rw [Bool.and_eq_true, beq_iff_eq, beq_iff_eq, and_comm, eq_comm (a := name)]
  have former : (db.domains.any fun domain => domain.isLive &&
      (db.applications.any fun application =>
        application.id == domain.applicationId && application.status == .active) &&
      domain.claims.any fun claim =>
        claim.cnameTarget == name && claim.status != .revoked) = true ↔
      ∃ application ∈ db.applications, application.status = .active ∧
        ∃ domain ∈ db.domains, domain.applicationId = application.id ∧ domain.isLive = true ∧
          ∃ claim ∈ domain.claims, claim.status ≠ .revoked ∧ claim.cnameTarget = name := by
    simp only [List.any_eq_true, Bool.and_eq_true, beq_iff_eq, bne_iff_ne]
    constructor
    · rintro ⟨domain, stored, ⟨live, application, known, owner, active⟩, claim, inside, target, open_⟩
      exact ⟨application, known, active, domain, stored, owner.symm, live, claim, inside, open_, target⟩
    · rintro ⟨application, known, active, domain, stored, owner, live, claim, inside, open_, target⟩
      exact ⟨domain, stored, ⟨live, application, known, owner.symm, active⟩, claim, inside, target, open_⟩
  have listed : name ∈ portalHosts edgeHostname db ↔ edgeHostname = some name ∨
      (∃ application ∈ db.applications, application.status = .active ∧
        name = application.cnameTarget) ∨
      ∃ application ∈ db.applications, application.status = .active ∧
        ∃ domain ∈ db.domains, domain.applicationId = application.id ∧ domain.isLive = true ∧
          ∃ claim ∈ domain.claims, claim.status ≠ .revoked ∧ claim.cnameTarget = name := by
    rw [mem_portalHosts, and_iff_left named]
    refine or_congr Iff.rfl ?_
    simp only [mem_edgeNames, and_or_left, exists_or]
  unfold isEdgeName
  rw [accepted]
  dsimp only
  by_cases own : edgeHostname = some name
  · rw [if_pos own, decide_eq_true (listed.mpr (.inl own))]
    rfl
  · rw [if_neg own, Program.run_bind, Program.run_read]
    dsimp only
    rw [or_iff_right own] at listed
    by_cases current : (db.applications.any fun application =>
        application.cnameTarget == name && application.status == .active) = true
    · rw [if_pos current, decide_eq_true (listed.mpr (.inl (active.mp current)))]
      rfl
    · rw [if_neg current, Program.run_read]
      rw [or_iff_right (mt active.mpr current), ← former] at listed
      rw [← Bool.decide_coe (db.domains.any _), decide_eq_decide.mpr listed]

/-- `is_edge_name` looks a name up in `portal_hosts`. -/
theorem isEdgeName_run (tables : NameTables) (raw : String) :
    (isEdgeName tables edgeHostname raw).run db = (.ok (match canonicalize tables raw true with
      | .ok name => decide (name ∈ portalHosts edgeHostname db)
      | .error _ => false), db) := by
  cases accepted : canonicalize tables raw true with
  | error refused =>
      unfold isEdgeName
      rw [accepted]
      rfl
  | ok name =>
      apply isEdgeName_canonical accepted
      rintro rfl
      exact absurd (canonicalize_length accepted).1 (by decide)

/-- Between two names, the customer rules decide. -/
theorem tlsAsk_run (consistent : db.Consistent environment) {name : String}
    (stable : environment.tables.Stable) (canonical : IsCanonical environment true name)
    (own : name ∈ portalHosts edgeHostname db) :
    (tlsAsk environment true edgeHostname name).run db =
      (.ok (match canonicalize environment.tables name false with
        | .ok _ => 200
        | .error _ => 403), db) := by
  obtain ⟨raw, accepted⟩ := canonical
  have length := canonicalize_length accepted
  have fits : ¬ (name.length < 1 ∨ 253 < name.length) := by
    change 0 < name.length ∧ name.length ≤ 253 at length
    omega
  unfold tlsAsk
  rw [if_neg fits, if_neg (by decide), Program.run_bind, Program.run_tryCatch, Program.run_bind]
  cases customer : canonicalize environment.tables name false with
  | error refused =>
      have raised : (findLiveByHostname environment name).run db =
          (.error (.invalidHostname refused), db) := by
        unfold findLiveByHostname
        rw [customer]
        rfl
      rw [raised]
      rfl
  | ok text =>
      have wide := canonicalize_stable stable accepted
      have same : text = name := by
        have both := canonicalize_allowApex customer
        rw [wide] at both
        exact (Except.ok.inj both).symm
      subst same
      rw [LegacyImport.findLiveByHostname_exact consistent.keyed customer]
      dsimp only [Program.run_pure]
      split
      next => rfl
      next =>
        rw [Program.run_bind, isEdgeName_run, wide]
        dsimp only
        rw [decide_eq_true own]
        rfl

/-- Every edge name is allowed its certificate exactly when all of them are names that a customer could
register: `tls_ask` refuses an apex or reserved name before it asks whether it is the edge's own. -/
theorem edge_names_certified_iff (stable : environment.tables.Stable)
    (reachable : Reachable environment db) {value : String}
    (settings : readEdgeHostname environment.tables value = .ok edgeHostname) :
    ((∀ name ∈ portalHosts edgeHostname db,
        (tlsAsk environment true edgeHostname name).run db = (.ok 200, db)) ∧
      ∀ raw, (isEdgeName environment.tables edgeHostname raw).run db = (.ok true, db) ↔
        ∃ name ∈ portalHosts edgeHostname db, canonicalize environment.tables raw true = .ok name) ↔
    ∀ name ∈ portalHosts edgeHostname db,
      ∃ text, canonicalize environment.tables name false = .ok text := by
  have consistent := reachable.consistent
  have canonical := portalHosts_canonical consistent (readEdgeHostname_canonical settings)
  have found : ∀ raw, (isEdgeName environment.tables edgeHostname raw).run db = (.ok true, db) ↔
      ∃ name ∈ portalHosts edgeHostname db, canonicalize environment.tables raw true = .ok name := by
    intro raw
    rw [isEdgeName_run]
    cases canonicalize environment.tables raw true with
    | error refused => simp
    | ok name => simp
  rw [and_iff_left found]
  refine forall₂_congr fun name member => ?_
  rw [tlsAsk_run consistent stable (canonical name member) member]
  cases canonicalize environment.tables name false with
  | error refused => simp
  | ok text => simp

end Names

/-- Before there is an application, the edge's own hostname is all. -/
theorem portalHosts_first {name : String} (named : name ≠ "") :
    portalHosts (some name) {} = [name] := by
  unfold portalHosts
  simp [named]

theorem edge_names_certified_iff_subdomain :
    (tlsAsk sampleEnvironment true (some "edge.example.net") "edge.example.net").run {} =
      (.ok 200, {}) := by
  have settings : readEdgeHostname sampleEnvironment.tables "edge.example.net" =
      .ok (some "edge.example.net") := by
    decide +kernel
  have listed := @portalHosts_first "edge.example.net" (by decide)
  have reachable : Reachable sampleEnvironment {} := ⟨[], rfl⟩
  have certified := edge_names_certified_iff sampleEnvironment_lawful.stable reachable settings
  rw [listed] at certified
  apply (certified.mpr ?_).1 _ (List.mem_singleton_self _)
  intro name member
  rw [List.mem_singleton.mp member]
  exact ⟨"edge.example.net", by decide +kernel⟩

/-- With `EDGE_HOSTNAME` at the apex of its domain, the edge's own name gets no certificate. -/
theorem edge_apex_uncertified :
    readEdgeHostname sampleEnvironment.tables "example.net" = .ok (some "example.net") ∧
      portalHosts (some "example.net") {} = ["example.net"] ∧
      (isEdgeName sampleEnvironment.tables (some "example.net") "example.net").run {} =
        (.ok true, {}) ∧
      (tlsAsk sampleEnvironment true (some "example.net") "example.net").run {} = (.ok 403, {}) := by
  have wide : canonicalize sampleEnvironment.tables "example.net" true = .ok "example.net" := by
    decide +kernel
  have listed := @portalHosts_first "example.net" (by decide)
  refine ⟨by decide +kernel, listed, ?_, ?_⟩
  · rw [isEdgeName_run, wide, listed]
    rfl
  · rw [tlsAsk_run (Database.consistent_empty _) sampleEnvironment_lawful.stable ⟨_, wide⟩
      (by rw [listed]; exact List.mem_singleton_self _)]
    have refused : canonicalize sampleEnvironment.tables "example.net" false =
        .error ⟨"apex_not_supported", "Only subdomains such as forms.example.com are supported; " ++
          "example.net is the registrable (apex) domain"⟩ := by
      decide +kernel
    rw [refused]

end CustomDomain
