import CustomDomain.ServiceRuns

/-!
# Moving an application to a new target

After `set_cname_target`, `reissue_claims_for_target` of `app/services/domains.py` walks the live
domains whose claim names another target, and `edge_names` of `app/services/applications.py`
lists the names that are still in use.
-/

namespace CustomDomain

open Transaction

/-- `edge_names`. -/
def edgeNames (application : Application) (view : Database) : List String :=
  ((view.domains.filter fun domain =>
    decide (domain.applicationId = application.id) && domain.isLive).flatMap fun domain =>
      domain.liveClaims.map (·.cnameTarget)).foldl
    (fun names target => if target ∈ names then names else names ++ [target])
    [application.cnameTarget]

/-! ## One re-issue -/

namespace Domain

theorem reset_status {domain : Domain} (sound : domain.Sound) (now : Time) :
    (domain.reset now).status =
      if domain.status ∈ resetOnReissue then .pendingDns else domain.status := by
  have complete : (domain.revoked now).Complete := by
    rw [Complete, revoked, changeClaim_checks]
    exact sound.complete
  have status := (resetChecks_facts CheckType.all now _ complete).2.2
  rw [revoked, changeClaim_status] at status
  rw [reset, revoked, status]
  split
  next => rfl
  next => exact status

variable {domain : Domain} (sound : domain.Sound) (live : domain.isLive = true)

include sound live

/-- The claim is new, and nothing that was established under the old one is left. -/
theorem reissued_facts (claimId : Uuid) (token cnameTarget : String) (now : Time) :
    (∃ claim, (domain.reissued claimId token cnameTarget now).liveClaims = [claim] ∧
      claim.id = claimId ∧ claim.token = token ∧ claim.cnameTarget = cnameTarget ∧
      claim.status = .pending) ∧
    (domain.reissued claimId token cnameTarget now).checks.map (·.checkType) = CheckType.all ∧
    (∀ check ∈ (domain.reissued claimId token cnameTarget now).checks, check.status = .pending) ∧
    (domain.reissued claimId token cnameTarget now).status =
      if domain.status = .suspended then .suspended else .pendingDns := by
  obtain ⟨kept, complete, -, -⟩ := reset_facts sound live now
  have none : (domain.reset now).liveClaims = [] := by
    rw [kept.liveClaims, revoked_liveClaims sound]
  have pending := reset_pending sound now
  have status := reset_status sound now
  have open_ := (sound.live live).1
  rw [Domain.reissued]
  generalize domain.reset now = cleared at *
  refine ⟨⟨cleared.newClaim claimId token cnameTarget now, ?_, rfl, rfl, rfl, rfl⟩, complete,
    pending, ?_⟩
  · rw [liveClaims, addClaim, List.filter_append, ← liveClaims, none]
    rfl
  · change cleared.status = _
    rw [status]
    revert open_
    cases domain.status <;> decide

theorem reissued_owner (claimId : Uuid) (token cnameTarget : String) (now : Time) :
    (domain.reissued claimId token cnameTarget now).applicationId = domain.applicationId ∧
      (domain.reissued claimId token cnameTarget now).isLive = true := by
  have kept := (reset_facts sound live now).1
  have isLive : (domain.reset now).isLive = true := by
    rw [kept.isLive, revoked, changeClaim_isLive, live]
  have owner : (domain.reset now).applicationId = domain.applicationId :=
    kept.applicationId.trans (domain.changeClaim_alike _).applicationId
  rw [Domain.reissued]
  generalize domain.reset now = cleared at *
  exact ⟨owner, isLive⟩

end Domain

section One

variable {db : Database} {domain : Domain}

/-- A claim that no row of `base` has is one that no row has after a change that keeps the
domain's claims apart from what they say. -/
theorem Holds.unseen {base : Database} {before : Domain} (holds : Holds base domain db)
    (member : before ∈ base.domains) (alike : before.Alike domain) {claimId : Uuid} {token : String}
    (unseen : ∀ row ∈ base.domains, ∀ other ∈ row.claims, other.id ≠ claimId ∧ other.token ≠ token) :
    ∀ row ∈ db.domains, ∀ other ∈ row.claims, other.id ≠ claimId ∧ other.token ≠ token := by
  intro row present other inside
  rw [holds.domains] at present
  obtain ⟨stored, among, shape⟩ := List.mem_map.mp present
  split at shape
  next =>
    subst shape
    obtain ⟨claim, first, label⟩ := alike.symm.exists_label inside
    simp only [Domain.claimLabel, Prod.mk.injEq] at label
    rw [← label.1, ← label.2.1]
    exact unseen before member claim first
  next =>
    subst shape
    exact unseen stored among other inside

/-- A live domain of the application is re-issued when the drawn claim is a new one. -/
theorem reissueClaim_returns (keyed : db.Keyed) (member : domain ∈ db.domains)
    (sound : domain.Sound) (live : domain.isLive = true) {application : Application}
    (owned : domain.applicationId = application.id) {claimId : Uuid} {token : String}
    (unseen : ∀ row ∈ db.domains, ∀ other ∈ row.claims, other.id ≠ claimId ∧ other.token ≠ token)
    (now : Time) :
    (reissueClaim application domain.id claimId token now).Returns db
      (Becomes db (domain.reissued claimId token application.cnameTarget now)) := by
  have found : (getDomain application domain.id false).Returns db fun value after =>
      value = domain ∧ after = db :=
    .of_run (getDomain_run (keyed.domain?_eq member) owned live) ⟨rfl, rfl⟩
  have kept := (Domain.reset_facts sound live now).1
  unfold reissueClaim
  refine found.andThen ?_
  rintro value after ⟨isDomain, unchanged⟩
  rw [isDomain, unchanged]
  refine cleared_spec (Holds.self keyed member) sound live now fun cleared holds => ?_
  have none : (domain.reset now).liveClaims = [] := by
    rw [kept.liveClaims, Domain.revoked_liveClaims sound]
  have fresh := holds.unseen member ((domain.changeClaim_alike _).trans kept.alike) unseen
  refine (issueClaim_returns holds none fresh application.cnameTarget now).andThen ?_
  rintro _ issued ⟨rfl, stored⟩
  exact refresh_spec stored

end One

/-! ## The walk -/

section Walk

variable (application : Application) (draw : Nat → Uuid × String) (now : Time)

/-- A row after the walk over `ids`, of which the first draws number `count`. -/
def retargeted (ids : List Uuid) (count : Nat) (row : Domain) : Domain :=
  if row.id ∈ ids then
    row.reissued (draw (count + ids.idxOf row.id)).1 (draw (count + ids.idxOf row.id)).2
      application.cnameTarget now
  else row

/-- The claims drawn from number `count` on are new ones. -/
structure NewClaims (count : Nat) (db : Database) : Prop where
  unseen : ∀ number, count ≤ number → ∀ row ∈ db.domains, ∀ other ∈ row.claims,
    other.id ≠ (draw number).1 ∧ other.token ≠ (draw number).2
  apart : ∀ first second, first ≠ second →
    (draw first).1 ≠ (draw second).1 ∧ (draw first).2 ≠ (draw second).2

variable {application draw now}

/-- The rows the walk is about: live domains of the application, each once. -/
structure Walked (application : Application) (ids : List Uuid) (db : Database) : Prop where
  distinct : ids.Nodup
  stored : ∀ id ∈ ids, ∃ domain ∈ db.domains, domain.id = id ∧ domain.isLive = true ∧
    domain.applicationId = application.id

theorem reissued_unseen {domain : Domain} (sound : domain.Sound) (live : domain.isLive = true)
    {claimId : Uuid} {token cnameTarget : String} {other : OwnershipClaim}
    (inside : other ∈ (domain.reissued claimId token cnameTarget now).claims) :
    (∃ claim ∈ domain.claims, claim.id = other.id ∧ claim.token = other.token) ∨
      (other.id = claimId ∧ other.token = token) := by
  have kept := (Domain.reset_facts sound live now).1
  have alike := (domain.changeClaim_alike
    fun before => { before with status := .revoked, revokedAt := some now }).trans kept.alike
  rw [Domain.reissued] at inside
  generalize domain.reset now = cleared at *
  rcases List.mem_append.mp inside with old | new
  · obtain ⟨claim, first, label⟩ := alike.symm.exists_label old
    simp only [Domain.claimLabel, Prod.mk.injEq] at label
    exact .inl ⟨claim, first, label.1, label.2.1⟩
  · rw [List.mem_singleton.mp new]
    exact .inr ⟨rfl, rfl⟩

theorem reissues_returns (now : Time) (ids : List Uuid) (count : Nat) {db : Database}
    (keyed : db.Keyed) (sound : ∀ domain ∈ db.domains, domain.Sound) (walked : Walked application ids db)
    (fresh : NewClaims draw count db) :
    (Program.foldEach ids count fun count domainId => do
      let _ ← reissueClaim application domainId (draw count).1 (draw count).2 now
      pure (count + 1)).Returns db fun value after => value = count + ids.length ∧
        db.SameSetup after ∧
        after.domains = db.domains.map (retargeted application draw now ids count) := by
  induction ids generalizing count db with
  | nil =>
      refine .of_pure ⟨rfl, .refl db, ?_⟩
      conv_lhs => rw [← List.map_id db.domains]
      exact List.map_congr_left fun row _ => rfl
  | cons id ids ih =>
      obtain ⟨absent, distinct⟩ := List.nodup_cons.mp walked.distinct
      obtain ⟨domain, member, rfl, live, owned⟩ := walked.stored id (List.mem_cons_self ..)
      have isSound := sound domain member
      have unseen := fresh.unseen count (le_refl count)
      have isId := Domain.reissued_id isSound live (draw count).1 (draw count).2
        application.cnameTarget now
      have stepped : (do
          let _ ← reissueClaim application domain.id (draw count).1 (draw count).2 now
          pure (count + 1) : Sql Nat).Returns db fun value after => value = count + 1 ∧
            Holds db (domain.reissued (draw count).1 (draw count).2 application.cnameTarget now) after :=
        (reissueClaim_returns keyed member isSound live owned unseen now).bind
          fun _ _ step => .of_pure ⟨rfl, step.2⟩
      refine Program.Spec.bind stepped ?_
      rintro _ next ⟨rfl, holds⟩
      have rows : ∀ row ∈ next.domains, row ∈ db.domains ∨
          row = domain.reissued (draw count).1 (draw count).2 application.cnameTarget now := by
        intro row present
        rw [holds.domains] at present
        obtain ⟨stored, among, shape⟩ := List.mem_map.mp present
        split at shape
        next => exact .inr shape.symm
        next => exact .inl (shape ▸ among)
      have others (row : Domain) (present : row ∈ db.domains) (other : row.id ≠ domain.id) :
          row ∈ next.domains := by
        rw [holds.domains]
        exact List.mem_map.mpr ⟨row, present, if_neg (isId ▸ other)⟩
      have sound' : ∀ row ∈ next.domains, row.Sound := by
        intro row present
        rcases rows row present with old | rfl
        · exact sound row old
        · exact isSound.reissued live (fun claim inside => (unseen domain member claim inside).1) _ _ _
      have walked' : Walked application ids next := by
        refine ⟨distinct, fun id later => ?_⟩
        obtain ⟨row, present, rfl, facts⟩ := walked.stored id (List.mem_cons_of_mem _ later)
        exact ⟨row, others row present fun same => absent (same ▸ later), rfl, facts⟩
      have fresh' : NewClaims draw (count + 1) next := by
        refine ⟨fun number later row present other inside => ?_, fresh.apart⟩
        rcases rows row present with old | rfl
        · exact fresh.unseen number (Nat.le_of_succ_le later) row old other inside
        · rcases reissued_unseen isSound live inside with ⟨claim, first, id, token⟩ | ⟨id, token⟩
          · rw [← id, ← token]
            exact fresh.unseen number (Nat.le_of_succ_le later) domain member claim first
          · rw [id, token]
            exact fresh.apart count number (by omega)
      refine (ih (count + 1) (holds.keyed keyed) sound' walked' fresh').weaken ?_
      rintro value after ⟨counted, setup, domains⟩
      refine ⟨by rw [counted, List.length_cons]; omega, holds.setup.trans setup, ?_⟩
      rw [domains, holds.domains, List.map_map]
      refine List.map_congr_left fun row present => ?_
      simp only [Function.comp_apply, isId]
      by_cases here : row.id = domain.id
      · have same : row = domain := List.inj_on_of_nodup_map keyed present member here
        subst same
        rw [if_pos rfl, retargeted, isId, if_neg absent, retargeted, if_pos (List.mem_cons_self ..),
          List.idxOf_cons_self, Nat.add_zero]
      · rw [if_neg here, retargeted, retargeted, List.idxOf_cons_ne _ (Ne.symm here)]
        simp only [List.mem_cons, here, false_or, Nat.succ_eq_add_one, Nat.add_assoc, Nat.add_comm 1]

end Walk

/-! ## The rows it is about -/

/-- A live domain of the application whose live claim names another target. -/
def Domain.Stale (application : Application) (domain : Domain) : Prop :=
  domain.applicationId = application.id ∧ domain.isLive = true ∧
    ∃ claim ∈ domain.liveClaims, claim.cnameTarget ≠ application.cnameTarget

instance (application : Application) (domain : Domain) : Decidable (domain.Stale application) :=
  inferInstanceAs (Decidable (_ ∧ _))

theorem stale_filter (application : Application) (rows : List Domain) :
    (rows.filter fun domain =>
      decide (domain.applicationId = application.id) && domain.isLive &&
        domain.liveClaims.any fun claim => claim.cnameTarget != application.cnameTarget) =
      rows.filter fun domain => domain.Stale application := by
  refine List.filter_congr fun domain _ => ?_
  rw [Bool.eq_iff_iff, decide_eq_true_iff, Domain.Stale]
  simp [and_assoc]

theorem staleDomains_perm (application : Application) (db : Database) :
    (staleDomains application db).Perm
      ((db.domains.filter fun domain => domain.Stale application).map (·.id)) := by
  rw [staleDomains, stale_filter]
  exact (List.perm_insertionSort _ _).map _

theorem staleDomains_length (application : Application) (db : Database) :
    (staleDomains application db).length =
      (db.domains.filter fun domain => domain.Stale application).length := by
  rw [(staleDomains_perm application db).length_eq, List.length_map]

theorem mem_staleDomains {application : Application} {db : Database} {id : Uuid} :
    id ∈ staleDomains application db ↔
      ∃ domain ∈ db.domains, domain.Stale application ∧ domain.id = id := by
  rw [(staleDomains_perm application db).mem_iff, List.mem_map]
  constructor
  · rintro ⟨domain, member, same⟩
    obtain ⟨stored, stale⟩ := List.mem_filter.mp member
    exact ⟨domain, stored, of_decide_eq_true stale, same⟩
  · rintro ⟨domain, stored, stale, same⟩
    exact ⟨domain, List.mem_filter.mpr ⟨stored, decide_eq_true stale⟩, same⟩

theorem stale_of_mem {application : Application} {db : Database} (keyed : db.Keyed)
    {domain : Domain} (member : domain ∈ db.domains) :
    domain.id ∈ staleDomains application db ↔ domain.Stale application := by
  rw [mem_staleDomains]
  constructor
  · rintro ⟨other, stored, stale, same⟩
    exact List.inj_on_of_nodup_map keyed stored member same ▸ stale
  · exact fun stale => ⟨domain, member, stale, rfl⟩

theorem staleDomains_walked (application : Application) {db : Database} (keyed : db.Keyed) :
    Walked application (staleDomains application db) db where
  distinct := by
    rw [(staleDomains_perm application db).nodup_iff]
    exact keyed.sublist (List.filter_sublist.map _)
  stored := by
    intro id member
    obtain ⟨domain, stored, stale, same⟩ := mem_staleDomains.mp member
    exact ⟨domain, stored, same, stale.2.1, stale.1⟩

/-! ## The names still in use -/

theorem foldl_known {names : List String} {target : String} (known : target ∈ names)
    (targets : List String) (all : ∀ name ∈ targets, name = target) :
    targets.foldl (fun names target => if target ∈ names then names else names ++ [target]) names =
      names := by
  induction targets with
  | nil => rfl
  | cons name rest ih =>
      have first := all name (List.mem_cons_self ..)
      rw [List.foldl_cons, first, if_pos known]
      exact ih fun other later => all other (List.mem_cons_of_mem _ later)

theorem edgeNames_of_current {application : Application} {db : Database}
    (current : ∀ domain ∈ db.domains, domain.applicationId = application.id →
      domain.isLive = true → ∀ claim ∈ domain.liveClaims,
        claim.cnameTarget = application.cnameTarget) :
    edgeNames application db = [application.cnameTarget] := by
  refine foldl_known (List.mem_singleton_self _) _ fun name member => ?_
  obtain ⟨domain, selected, inside⟩ := List.mem_flatMap.mp member
  obtain ⟨claim, live, rfl⟩ := List.mem_map.mp inside
  obtain ⟨stored, chosen⟩ := List.mem_filter.mp selected
  simp only [Bool.and_eq_true, decide_eq_true_eq] at chosen
  exact current domain stored chosen.1 chosen.2 claim live

/-! ## The whole call -/

/-- What a re-issue for `application` leaves of a row: the claims it had, all revoked, and a new
pending one. -/
structure Retargeted (application : Application) (before after : Domain) : Prop where
  same : after.id = before.id ∧ after.applicationId = before.applicationId ∧
    after.hostname = before.hostname ∧ after.isLive = before.isLive
  once : after.claims.length = before.claims.length + 1
  claim : ∃ claim, after.liveClaims = [claim] ∧ claim.status = .pending ∧
    claim.cnameTarget = application.cnameTarget ∧ ∀ old ∈ before.claims, old.id ≠ claim.id
  checks : after.checks.map (·.checkType) = CheckType.all ∧
    ∀ check ∈ after.checks, check.status = .pending
  status : after.status = if before.status = .suspended then .suspended else .pendingDns

theorem reissued_retargeted (application : Application) {domain : Domain} (sound : domain.Sound)
    (live : domain.isLive = true) {claimId : Uuid}
    (unseen : ∀ claim ∈ domain.claims, claim.id ≠ claimId) (token : String) (now : Time) :
    Retargeted application domain
      (domain.reissued claimId token application.cnameTarget now) := by
  obtain ⟨⟨claim, only, isId, -, target, pending⟩, types, checks, status⟩ :=
    Domain.reissued_facts sound live claimId token application.cnameTarget now
  have kept := (Domain.reset_facts sound live now).1
  have alike := (domain.changeClaim_alike
    fun before => { before with status := .revoked, revokedAt := some now }).trans kept.alike
  obtain ⟨owner, isLive⟩ :=
    Domain.reissued_owner sound live claimId token application.cnameTarget now
  have count : (domain.reset now).claims.length = domain.claims.length := by
    have lengths := congrArg List.length alike.labels
    rwa [List.length_map, List.length_map] at lengths
  constructor
  case same =>
    exact ⟨Domain.reissued_id sound live claimId token application.cnameTarget now, owner,
      alike.hostname, isLive.trans live.symm⟩
  case once =>
    rw [Domain.reissued, Domain.addClaim, List.length_append, List.length_singleton, count]
  case claim => exact ⟨claim, only, pending, target, fun old inside => isId ▸ unseen old inside⟩
  case checks => exact ⟨types, checks⟩
  case status => exact status

/-- The stale domains are re-issued once each, and nothing else is written to. -/
theorem stale_domains_reissued {environment : Environment} {db : Database}
    (reachable : Reachable environment db) (application : Application)
    (draw : Nat → Uuid × String) (fresh : NewClaims draw 0 db) (now : Time) :
    ∃ after, (reissueClaimsForTarget application draw now).run db =
        (.ok (db.domains.filter fun domain => domain.Stale application).length, after) ∧
      db.SameSetup after ∧
      List.Forall₂ (fun before after =>
        if before.Stale application then Retargeted application before after
        else after = before) db.domains after.domains ∧
      (∀ domain ∈ after.domains, domain.applicationId = application.id → domain.isLive = true →
        ∃ claim, domain.liveClaims = [claim] ∧
          claim.cnameTarget = application.cnameTarget) ∧
      edgeNames application after = [application.cnameTarget] := by
  have consistent := reachable.consistent
  have walked := staleDomains_walked application consistent.keyed
  have walk := reissues_returns now (staleDomains application db) 0 consistent.keyed
    consistent.sound walked fresh
  obtain ⟨count, after, ran⟩ := walk.returns
  obtain ⟨-, setup, domains⟩ := walk.result ran
  have rows : List.Forall₂ (fun before after =>
      if before.Stale application then Retargeted application before after
      else after = before) db.domains after.domains := by
    rw [domains, List.forall₂_map_right_iff, List.forall₂_same]
    intro domain member
    have listed : domain.id ∈ staleDomains application db ↔ domain.Stale application :=
      stale_of_mem consistent.keyed member
    split
    next stale =>
      rw [retargeted, if_pos (listed.mpr stale)]
      exact reissued_retargeted application (consistent.sound domain member) stale.2.1
        (fun claim inside => (fresh.unseen _ (Nat.zero_le _) domain member claim inside).1) _ _
    next other => rw [retargeted, if_neg (listed.not.mpr other)]
  have current : ∀ domain ∈ after.domains, domain.applicationId = application.id →
      domain.isLive = true → ∃ claim, domain.liveClaims = [claim] ∧
        claim.cnameTarget = application.cnameTarget := by
    intro domain member owned live
    rw [domains] at member
    obtain ⟨before, stored, rfl⟩ := List.mem_map.mp member
    have sound := consistent.sound before stored
    by_cases stale : before.Stale application
    · rw [retargeted, if_pos ((stale_of_mem consistent.keyed stored).mpr stale)]
      obtain ⟨claim, only, -, target, -⟩ := (reissued_retargeted application sound stale.2.1
        (fun claim inside => (fresh.unseen _ (Nat.zero_le _) before stored claim inside).1) _ now).claim
      exact ⟨claim, only, target⟩
    · rw [retargeted, if_neg ((stale_of_mem consistent.keyed stored).not.mpr stale)] at owned live ⊢
      obtain ⟨claim, only⟩ := (sound.live live).2
      refine ⟨claim, only, ?_⟩
      by_contra other
      exact stale ⟨owned, live, claim, only ▸ List.mem_singleton_self claim, other⟩
  refine ⟨after, ?_, setup, rows, current, edgeNames_of_current ?_⟩
  · rw [reissueClaimsForTarget, ← staleDomains_length, Program.run_bind, Program.run_read]
    simp only [Program.run_bind, ran, Program.run_pure]
  · intro domain member owned live claim inside
    obtain ⟨only, alone, target⟩ := current domain member owned live
    rw [alone, List.mem_singleton] at inside
    rw [inside, target]

def targetRun : List ServiceOp :=
  [.createApplication "acme" "Acme" "edge.example.net" 1,
    .claimDomain 1 "forms.example.com" "workspace" ⟨2, 3, "token"⟩ 0,
    .setCnameTarget 1 "new.example.net"]

/-- Each draw is a new identifier and a longer token. -/
def targetDraw (number : Nat) : Uuid × String :=
  (number + 4, String.ofList (List.replicate number 'n'))

theorem targetDraw_new : NewClaims targetDraw 0 (runAll sampleEnvironment targetRun {}) where
  unseen := by
    have issued : ∀ row ∈ (runAll sampleEnvironment targetRun {}).domains,
        ∀ other ∈ row.claims, other.id = 3 ∧ other.token = "token" := by
      decide +kernel
    intro number _ row stored other inside
    obtain ⟨id, token⟩ := issued row stored other inside
    constructor
    · rw [id]
      exact Nat.ne_of_lt (Nat.lt_add_left number (by decide))
    · rw [token]
      intro same
      have letter : 't' ∈ List.replicate number 'n' := by
        have letters := congrArg String.toList same
        simp only [targetDraw, String.toList_ofList] at letters
        rw [← letters]
        decide
      exact absurd (List.eq_of_mem_replicate letter) (by decide)
  apart := by
    intro first second differ
    refine ⟨fun same => differ (Nat.add_right_cancel same), fun same => differ ?_⟩
    have lengths := congrArg List.length (String.ofList_injective same)
    rwa [List.length_replicate, List.length_replicate] at lengths

theorem stale_domains_reissued_targetRun :
    ∃ after, (reissueClaimsForTarget { sampleApplication with cnameTarget := "new.example.net" }
        targetDraw 5).run (runAll sampleEnvironment targetRun {}) = (.ok 1, after) ∧
      edgeNames { sampleApplication with cnameTarget := "new.example.net" } after =
        ["new.example.net"] := by
  have one : ((runAll sampleEnvironment targetRun {}).domains.filter fun domain =>
      domain.Stale { sampleApplication with cnameTarget := "new.example.net" }).length = 1 := by
    decide +kernel
  obtain ⟨after, ran, -, -, -, names⟩ := stale_domains_reissued ⟨targetRun, rfl⟩
    { sampleApplication with cnameTarget := "new.example.net" } targetDraw targetDraw_new 5
  rw [one] at ran
  exact ⟨after, ran, names⟩

end CustomDomain
