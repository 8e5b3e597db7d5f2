import CustomDomain.DomainLimits
import Mathlib.Data.Fintype.Option

/-!
# Deleting an application while it registers domains

`delete_application` lists the live domains in one statement and marks the
application in a later one, and `claim_domain` trusts the status its caller read
before the transaction.  The deletion therefore leaves no live domain behind
exactly as long as no registration of the application commits once the list has
been read.
-/

namespace CustomDomain

open Transaction Relation

/-! ## The deletion on its own -/

/-- What `delete_application` does after the tombstones. -/
def archiveApplication (application : Application) (live : Nat) (now : Time) : Sql Nat := do
  let credentials ← .read fun view =>
    view.credentials.filter fun credential => credential.applicationId = application.id
  let origins ← .read fun view =>
    view.origins.filter fun origin => origin.applicationId = application.id
  Program.foldEach credentials () fun _ credential => revokeCredentialRow credential now
  Program.foldEach origins () fun _ origin =>
    flushOrigin origin { origin with isActive := false, status := .retired }
  let latestPurge ← .read fun view =>
    ((view.domains.filter fun domain => domain.applicationId = application.id).filterMap
      (·.purgeAfter)).max?
  flushApplication application (application.archived latestPurge now)
  pure live

/-- What it does once it has listed the live domains. -/
def deleteListed (application : Application) (live : Nat) (ids : List Uuid) (now : Time) :
    Sql Nat := do
  Program.foldEach ids () fun _ domainId => do
    let _ ← deleteDomain application domainId now
    pure ()
  archiveApplication application live now

/-- What it does once it has counted them. -/
def deleteCounted (application : Application) (deleteDomains : Bool) (live : Nat) (now : Time) :
    Sql Nat := do
  Program.require (live = 0 ∨ deleteDomains = true) (.applicationNotEmpty live)
  let ids ← .read (liveDomainIds application)
  deleteListed application live ids now

theorem deleteApplication_eq (application : Application) (confirmSlug : String)
    (deleteDomains : Bool) (now : Time) :
    deleteApplication application confirmSlug deleteDomains now = (do
      Program.require (PythonText.strip confirmSlug = application.slug) .confirmationMismatch
      let live ← countLive (some application.id)
      deleteCounted application deleteDomains live now) :=
  rfl

/-- Only the application being deleted changes, and it keeps its key. -/
def Application.KeptBut (id : Uuid) (before after : Application) : Prop :=
  after.id = before.id ∧ (before.id ≠ id → after = before)

theorem Application.KeptBut.refl (id : Uuid) (row : Application) : Application.KeptBut id row row :=
  ⟨rfl, fun _ => rfl⟩

theorem Application.KeptBut.trans {id : Uuid} (first second third : Application)
    (left : Application.KeptBut id first second) (right : Application.KeptBut id second third) :
    Application.KeptBut id first third :=
  ⟨right.1.trans left.1, fun other =>
    (right.2 (by rw [left.1]; exact other)).trans (left.2 other)⟩

theorem archiveApplication_within (application : Application) (live : Nat) (now : Time) :
    (archiveApplication application live now).Within
      (RowWise (Application.KeptBut application.id) Domain.Thins fun _ => True) NotLimitReached := by
  have keeps := Application.KeptBut.refl application.id
  have permits := Permits.thins keeps
  refine Program.Within.bind (fun _ => trivial) fun credentials => ?_
  refine Program.Within.bind (fun _ => trivial) fun origins => ?_
  refine Program.Within.bind (Program.Within.foldEach fun _ credential =>
    revokeCredentialRow_within permits credential now) fun _ => ?_
  refine Program.Within.bind (Program.Within.foldEach fun _ origin =>
    flushOrigin_within permits origin _) fun _ => ?_
  refine Program.Within.bind (fun _ => trivial) fun latestPurge => ?_
  refine Program.Within.bind (fun view => ⟨⟨fun db => ?_, fun _ => rfl, fun db =>
    ⟨fun domain => domain, Domain.Thins.refl, (List.map_id' _).symm⟩,
      fun _ => ⟨[], fun _ _ => trivial, (List.append_nil _).symm⟩⟩, ?_⟩) fun _ => trivial
  · refine ⟨_, fun row => ?_, rfl⟩
    split
    next here => exact ⟨rfl, fun other => absurd here other⟩
    next => exact keeps row
  · dsimp only
    split_ifs
    · exact fun _ _ _ => by simp
    · exact trivial
    · exact fun _ _ _ => by simp

theorem deleteApplication_within (application : Application) (confirmSlug : String)
    (deleteDomains : Bool) (now : Time) :
    (deleteApplication application confirmSlug deleteDomains now).Within
      (RowWise (Application.KeptBut application.id) Domain.Thins fun _ => True) NotLimitReached := by
  rw [deleteApplication_eq]
  refine (Program.Within.require fun _ _ _ => by simp).bind fun _ => ?_
  refine Program.Within.bind (fun _ => trivial) fun live => ?_
  refine (Program.Within.require fun _ _ _ => by simp).bind fun _ => ?_
  refine Program.Within.bind (fun _ => trivial) fun ids => ?_
  refine Program.Within.bind (Program.Within.foldEach fun _ domainId =>
    (deleteDomain_within (Application.KeptBut.refl _) (fun _ _ => trivial) (fun _ _ => trivial)
      application domainId now).bind
      fun _ => trivial) fun _ => ?_
  exact archiveApplication_within application live now

/-- The application has no live domain. -/
def Database.Vacant (db : Database) (applicationId : Uuid) : Prop :=
  ∀ domain ∈ db.domains, domain.applicationId = applicationId → domain.isLive = false

theorem Database.vacant_iff (db : Database) (applicationId : Uuid) :
    db.Vacant applicationId ↔ db.liveCount (some applicationId) = 0 := by
  unfold Vacant liveCount liveDomains
  rw [List.length_eq_zero_iff, List.filter_eq_nil_iff]
  refine forall₂_congr fun domain _ => ?_
  simp only [Option.all_some, Bool.and_eq_true, decide_eq_true_eq, not_and]
  constructor
  · intro dead live owned
    exact absurd (live.symm.trans (dead owned)) (by simp)
  · intro dead owned
    exact Bool.eq_false_iff.mpr fun live => dead live owned

/-- Every live domain of the application is among the listed ones. -/
def Database.Listed (db : Database) (applicationId : Uuid) (ids : List Uuid) : Prop :=
  ∀ domain ∈ db.domains, domain.applicationId = applicationId → domain.isLive = true →
    domain.id ∈ ids

/-- Deleting the first of the listed domains leaves the others. -/
theorem deleteDomain_listed {db : Database} (keyed : db.Keyed) {application : Application}
    {domainId : Uuid} {ids : List Uuid} (listed : db.Listed application.id (domainId :: ids))
    (now : Time) :
    (deleteDomain application domainId now).Ensures db fun _ after =>
      after.Keyed ∧ after.Listed application.id ids := by
  refine (deleteDomain_spec keyed application domainId now).mono ?_ fun _ _ _ => trivial
  rintro _ after ⟨target, present, key, -, ⟨dead, -, rfl⟩ | ⟨-, -, holds⟩⟩
  · refine ⟨keyed, fun domain member owned live => ?_⟩
    rcases List.mem_cons.mp (listed domain member owned live) with here | later
    · have same := List.inj_on_of_nodup_map keyed member present (here.trans key.symm)
      rw [same, dead] at live
      cases live
    · exact later
  · refine ⟨holds.keyed keyed, fun domain member owned live => ?_⟩
    rw [holds.domains] at member
    obtain ⟨row, stored, rfl⟩ := List.mem_map.mp member
    split at owned
    next same =>
      rw [if_pos same] at live
      simp [Domain.tombstoned_isLive] at live
    next distinct =>
      rw [if_neg distinct] at live ⊢
      rcases List.mem_cons.mp (listed row stored owned live) with here | later
      · exact absurd ((here.trans key.symm).trans (target.tombstoned_alike now).id.symm) distinct
      · exact later

theorem deleteListed_vacant {db : Database} (keyed : db.Keyed) {application : Application}
    {ids : List Uuid} (listed : db.Listed application.id ids) (live : Nat) (now : Time) :
    (deleteListed application live ids now).Ensures db fun _ after =>
      after.Vacant application.id := by
  unfold deleteListed
  have tombstones : (Program.foldEach ids () fun _ domainId => do
      let _ ← deleteDomain application domainId now
      pure () : Sql Unit).Ensures db fun _ after => after.Vacant application.id := by
    induction ids generalizing db with
    | nil =>
        refine Program.Spec.of_pure fun domain member owned => ?_
        exact Bool.eq_false_iff.mpr fun live => by simpa using listed domain member owned live
    | cons domainId ids ih =>
        have round : (do
            let _ ← deleteDomain application domainId now
            pure () : Sql Unit).Ensures db fun _ after =>
              after.Keyed ∧ after.Listed application.id ids :=
          (deleteDomain_listed keyed listed now).bind fun _ _ holds => .of_pure holds
        exact round.bind fun _ _ holds => ih holds.1 holds.2
  refine tombstones.bind fun _ after vacant => ?_
  rw [Database.vacant_iff] at vacant
  refine ((archiveApplication_within application live now).spec
    (fun db => db.liveCount (some application.id) = 0) (fun made db rowWise vacant => ?_)
    vacant).mono (fun _ after vacant => (after.vacant_iff _).mpr vacant) fun _ _ _ => trivial
  exact Nat.eq_zero_of_le_zero (vacant ▸ rowWise.liveCount_le db (some application.id))

/-! ## The race -/

/-- A registration; `application` is the object the credential check loaded. -/
structure ClaimRequest where
  application : Application
  hostname : String
  reference : String
  fresh : Fresh
  now : Time

instance (db : Database) (applicationId : Uuid) : Decidable (db.Vacant applicationId) :=
  inferInstanceAs (Decidable (∀ domain ∈ db.domains, _ → _))

/-- No deleted application has a live domain. -/
def Database.DeletedVacant (db : Database) : Prop :=
  ∀ row ∈ db.applications, row.deletedAt.isSome = true → db.Vacant row.id

instance (db : Database) : Decidable db.DeletedVacant :=
  inferInstanceAs (Decidable (∀ row ∈ db.applications, _ → _))

section Race

variable {ι : Type} (environment : Environment) (application : Application)
  (confirmSlug : String) (deleteDomains : Bool) (now : Time) (claims : ι → ClaimRequest)

/-- One deletion of the application and any number of registrations. -/
def race : Option ι → Sql Unit
  | none => do
      let _ ← deleteApplication application confirmSlug deleteDomains now
      pure ()
  | some index => do
      let _ ← claimDomain environment (claims index).application (claims index).hostname
        (claims index).reference (claims index).fresh (claims index).now
      pure ()

/-- The deletion has not read its list of live domains, or it is rolled
back. -/
def Unlisted (state : State store (Option ι) Unit) : Prop :=
  (state.session none).executed < 2 ∨ (state.session none).status = .rolledBack

/-- Registrations commit only before the deletion has listed the live
domains. -/
def ClaimsFirst (state : State store (Option ι) Unit) (moved : Option ι) : Prop :=
  moved ≠ none → (state.session moved).commits = true → Unlisted state

instance (state : State store (Option ι) Unit) : Decidable (Unlisted state) :=
  inferInstanceAs (Decidable (_ ∨ _))

instance [DecidableEq ι] (state : State store (Option ι) Unit) (moved : Option ι) :
    Decidable (ClaimsFirst state moved) :=
  inferInstanceAs (Decidable (_ → _ → _))

/-- How the deletion can end leaves the application vacant. -/
def Vacates (ended : Except ServiceError Unit × Database) : Prop :=
  ∀ value, ended.1 = .ok value → ended.2.Vacant application.id

theorem deleteListed_ends {db : Database} (keyed : db.Keyed) (live : Nat) :
    Vacates application (Program.run (do
      let _ ← deleteListed application live (liveDomainIds application db) now
      pure () : Sql Unit) db) := by
  have listed : db.Listed application.id (liveDomainIds application db) := by
    intro domain member owned isLive
    refine List.mem_map.mpr ⟨domain, List.mem_filter.mpr ⟨member, ?_⟩, rfl⟩
    simp [isLive, owned]
  intro value ended
  rw [Program.run_bind] at ended ⊢
  cases outcome : (deleteListed application live (liveDomainIds application db) now).run db with
  | mk result after =>
      rw [outcome] at ended
      cases result with
      | ok count => exact (deleteListed_vacant keyed listed live now).result outcome
      | error error => cases ended

/-- Where the deletion stands: about to count, about to list, or bound to leave
the application vacant if nothing else commits. -/
def Stage (state : State store (Option ι) Unit) : Prop :=
  state.session none =
      Session.start (race environment application confirmSlug deleteDomains now claims none) ∨
    ((state.session none).executed = 1 ∧ (state.session none).pending = id ∧
      ∃ live, (state.session none).program = (do
        let _ ← deleteCounted application deleteDomains live now
        pure () : Sql Unit)) ∨
    (2 ≤ (state.session none).executed ∧ Vacates application (state.remaining none))

variable {environment application confirmSlug deleteDomains now claims}

theorem stage_advance_self [DecidableEq ι] {state : State store (Option ι) Unit}
    (stage : Stage environment application confirmSlug deleteDomains now claims state)
    (keyed : state.committed.Keyed)
    (running : ((state.advance none).session none).status = .running) :
    Stage environment application confirmSlug deleteDomains now claims (state.advance none) := by
  have remaining := State.remaining_advance_self running
  rcases stage with start | ⟨once, clean, live, counted⟩ | ⟨listed, vacates⟩
  · right; left
    rw [State.advance_session_self, start] at running ⊢
    by_cases confirmed : PythonText.strip confirmSlug = application.slug
    · have shape : (Session.start (race environment application confirmSlug deleteDomains now
          claims none)).program = .select fun view => (do
            let _ ← deleteCounted application deleteDomains
              (view.liveDomains (some application.id)).length now
            pure () : Sql Unit) := by
        simp only [Session.start, race, deleteApplication_eq, Program.require, if_pos confirmed]
        rfl
      unfold Session.execute
      rw [shape]
      exact ⟨rfl, rfl, _, rfl⟩
    · have shape : (Session.start (race environment application confirmSlug deleteDomains now
          claims none)).program = .raise .confirmationMismatch := by
        simp only [Session.start, race, deleteApplication_eq, Program.require, if_neg confirmed]
        rfl
      unfold Session.execute at running
      rw [shape] at running
      cases running
  · right; right
    have executed := State.executed_advance_self running
    rw [State.advance_session_self] at running
    rw [remaining]
    refine ⟨by omega, ?_⟩
    by_cases permitted : live = 0 ∨ deleteDomains = true
    · have shape : (state.session none).program = .select fun view => (do
          let _ ← deleteListed application live (liveDomainIds application view) now
          pure () : Sql Unit) := by
        rw [counted]
        simp only [deleteCounted, Program.require, if_pos permitted]
        rfl
      have view : state.view none = state.committed := by
        rw [State.view, Session.view, clean]
        rfl
      rw [State.remaining, shape, view]
      exact deleteListed_ends application now keyed live
    · have shape : (state.session none).program = .raise (.applicationNotEmpty live) := by
        rw [counted]
        simp only [deleteCounted, Program.require, if_neg permitted]
        rfl
      unfold Session.execute at running
      rw [shape] at running
      cases running
  · right; right
    have executed := State.executed_advance_self running
    rw [remaining]
    exact ⟨by omega, vacates⟩

/-- Statements of others keep the stage, unless they commit after the list. -/
theorem stage_frame {state next : State store (Option ι) Unit}
    (stage : Stage environment application confirmSlug deleteDomains now claims state)
    (same : next.session none = state.session none)
    (remaining : 2 ≤ (state.session none).executed → next.remaining none = state.remaining none) :
    Stage environment application confirmSlug deleteDomains now claims next := by
  unfold Stage
  rw [same]
  rcases stage with start | counted | ⟨listed, vacates⟩
  · exact .inl start
  · exact .inr (.inl counted)
  · exact .inr (.inr ⟨listed, by rwa [remaining listed]⟩)

/-- The deletion commits only once it has listed the live domains, and leaves
none. -/
theorem Stage.vacant {state : State store (Option ι) Unit}
    (stage : Stage environment application confirmSlug deleteDomains now claims state)
    (commits : (state.session none).commits = true) :
    2 ≤ (state.session none).executed ∧ (state.view none).Vacant application.id := by
  obtain ⟨value, shape⟩ : ∃ value, (state.session none).program = .pure value := by
    unfold Session.commits at commits
    split at commits
    next value shape => exact ⟨value, shape⟩
    next => cases commits
  rcases stage with start | ⟨-, -, live, counted⟩ | ⟨listed, vacates⟩
  · rw [start] at shape
    simp only [Session.start, race, deleteApplication_eq, Program.require] at shape
    split at shape <;> cases shape
  · rw [counted] at shape
    simp only [deleteCounted, Program.require] at shape
    split at shape <;> cases shape
  · refine ⟨listed, ?_⟩
    have ended : state.remaining none = (.ok value, state.view none) := by
      rw [State.remaining, shape]
      rfl
    have vacant := vacates value
    rw [ended] at vacant
    exact vacant rfl

variable (environment application confirmSlug deleteDomains now claims)

/-- What every transaction of the race has to offer when it commits. -/
def RacePost : Option ι → Unit → Moment store → Prop
  | none, _ => Removing (Application.KeptBut application.id)
  | some index, _ => Claimed environment (claims index).application

theorem race_safe (db : Database) (index : Option ι) :
    Safe (limitRely environment) {} (RacePost environment application claims index)
      (race environment application confirmSlug deleteDomains now claims index)
      ⟨[], id, db⟩ := by
  cases index with
  | none =>
      exact (Removing.safe environment (Application.KeptBut.refl _) Application.KeptBut.trans
        (deleteApplication_within application confirmSlug deleteDomains now) db).discard
          fun _ _ holds _ => { holds with }
  | some index =>
      exact (claimDomain_safe environment (claims index).application _ _ _ _ db).discard
        fun _ _ holds within => holds.later within

theorem race_guarantees (index : Option ι) :
    State.Guarantees (limitRely environment) (RacePost environment application claims index) := by
  cases index with
  | none => exact Removing.guarantees environment fun kept => kept.1
  | some index => exact Claimed.guarantees environment (claims index).application

/-- What holds throughout the race. -/
structure Racing (db : Database) (state : State store (Option ι) Unit) : Prop where
  keyed : state.committed.Keyed
  vacant : state.committed.DeletedVacant
  unset : (state.session none).status ≠ .committed →
    state.committed.applications = db.applications
  listed : (state.session none).status = .committed → 2 ≤ (state.session none).executed
  stage : (state.session none).status = .running →
    Stage environment application confirmSlug deleteDomains now claims state

variable {environment application confirmSlug deleteDomains now claims} [DecidableEq ι]
  {db : Database} {state next : State store (Option ι) Unit}

/-- A registration that commits before the list adds to an application that is
not deleted. -/
theorem Racing.registered
    (racing : Racing environment application confirmSlug deleteDomains now claims db state)
    (own : ∀ index, (claims index).application.id = application.id)
    (open_ : ∀ row ∈ db.applications, row.id = application.id → row.deletedAt = none)
    {index : ι} (commits : (state.session (some index)).commits = true)
    (unlisted : Unlisted state)
    (claimed : Claimed environment (claims index).application (state.moment (some index))) :
    Racing environment application confirmSlug deleteDomains now claims db
      (state.advance (some index)) := by
  have pending : (state.session none).status ≠ .committed := by
    intro committed
    have := racing.listed committed
    rcases unlisted with early | aborted
    · omega
    · rw [aborted] at committed
      cases committed
  have same : (state.advance (some index)).session none = state.session none :=
    State.advance_session_of_ne state (some index) (by simp)
  have committed := State.advance_committed_of_commits state (some index) commits
  have applications : (state.advance (some index)).committed.applications =
      state.committed.applications := by
    rw [committed]
    exact claimed.applications _
  constructor
  case keyed =>
    obtain ⟨id, -, unused, adds⟩ := claimed.key
    unfold Database.Keyed
    rw [committed]
    refine (congrArg List.Nodup (adds state.committed)).mpr ?_
    rw [← List.concat_eq_append]
    exact racing.keyed.concat unused
  case vacant =>
    intro row member deleted
    rw [applications] at member
    have vacant := racing.vacant row member deleted
    have other : application.id ≠ row.id := by
      intro same
      rw [racing.unset pending] at member
      rw [open_ row member same.symm] at deleted
      cases deleted
    rw [Database.vacant_iff] at vacant ⊢
    have count := claimed.counts state.committed (some row.id)
    simp only [Option.all_some, own, other, decide_false, Bool.false_eq_true, if_false,
      Nat.add_zero] at count
    rw [committed]
    exact count.trans vacant
  case unset => exact fun _ => applications.trans (racing.unset pending)
  case listed => exact fun committed => absurd (same ▸ committed) pending
  case stage =>
    intro running
    rw [same] at running
    refine stage_frame (racing.stage running) same fun listed => ?_
    rcases unlisted with early | aborted
    · omega
    · rw [aborted] at running
      cases running

/-- The deletion commits with the application vacant. -/
theorem Racing.deleted
    (racing : Racing environment application confirmSlug deleteDomains now claims db state)
    (running : (state.session none).status = .running)
    (commits : (state.session none).commits = true)
    (removing : Removing (Application.KeptBut application.id) (state.moment none)) :
    Racing environment application confirmSlug deleteDomains now claims db
      (state.advance none) := by
  obtain ⟨listed, emptied⟩ := (racing.stage running).vacant commits
  have committed := State.advance_committed_of_commits state none commits
  have ended : ((state.advance none).session none).status = .committed ∧
      ((state.advance none).session none).executed = (state.session none).executed := by
    rw [State.advance_session_self]
    unfold Session.commits at commits
    unfold Session.execute
    split at commits
    next shape => rw [shape]; exact ⟨rfl, rfl⟩
    next => cases commits
  constructor
  case keyed =>
    unfold Database.Keyed
    rw [committed]
    exact (congrArg List.Nodup (removing.keys state.committed)).mpr racing.keyed
  case vacant =>
    intro row member deleted
    rw [committed] at member ⊢
    obtain ⟨update, kept, applications⟩ := removing.applications state.committed
    have member' : row ∈ (state.committed.applications).map update := applications ▸ member
    obtain ⟨before, stored, rfl⟩ := List.mem_map.mp member'
    rw [(kept before).1]
    by_cases target : before.id = application.id
    · rw [target]
      exact emptied
    · rw [(kept before).2 target] at deleted
      have vacant := racing.vacant before stored deleted
      rw [Database.vacant_iff] at vacant ⊢
      exact Nat.eq_zero_of_le_zero
        (vacant ▸ removing.counts state.committed (some before.id))
  case unset => exact fun other => absurd ended.1 other
  case listed => exact fun _ => ended.2 ▸ listed
  case stage => exact fun running => by rw [ended.1] at running; cases running

/-- A step that commits nothing. -/
theorem Racing.quiet
    (racing : Racing environment application confirmSlug deleteDomains now claims db state)
    {moved : Option ι} (running : (state.session moved).status = .running)
    (open_ : (state.session moved).commits = false) :
    Racing environment application confirmSlug deleteDomains now claims db
      (state.advance moved) := by
  have committed := State.advance_committed_of_not_commits state moved open_
  cases moved with
  | some index =>
      have same : (state.advance (some index)).session none = state.session none :=
        State.advance_session_of_ne state (some index) (by simp)
      refine ⟨?_, ?_, ?_, ?_, ?_⟩
      · rw [committed]; exact racing.keyed
      · rw [committed]; exact racing.vacant
      · rw [committed, same]; exact racing.unset
      · rw [same]; exact racing.listed
      · rw [same]
        exact fun running => stage_frame (racing.stage running) same fun _ =>
          State.remaining_advance_other (by simp) open_
  | none =>
      have unfinished : ((state.advance none).session none).status ≠ .committed := by
        rw [State.advance_session_self]
        unfold Session.commits at open_
        unfold Session.execute
        split <;> simp_all [Session.finish]
      refine ⟨?_, ?_, ?_, ?_, ?_⟩
      · rw [committed]; exact racing.keyed
      · rw [committed]; exact racing.vacant
      · rw [committed]
        exact fun _ => racing.unset (by rw [running]; simp)
      · exact fun ended => absurd ended unfinished
      · exact fun still => stage_advance_self (racing.stage running) racing.keyed still

theorem Racing.aborted
    (racing : Racing environment application confirmSlug deleteDomains now claims db state)
    {moved : Option ι} (running : (state.session moved).status = .running) :
    Racing environment application confirmSlug deleteDomains now claims db
      (state.abort moved) := by
  cases moved with
  | some index =>
      have same : (state.abort (some index)).session none = state.session none :=
        State.abort_session_of_ne state (some index) (by simp)
      refine ⟨racing.keyed, racing.vacant, ?_, ?_, ?_⟩
      · rw [same]; exact racing.unset
      · rw [same]; exact racing.listed
      · rw [same]
        exact fun running => stage_frame (racing.stage running) same fun _ =>
          State.remaining_abort_other (by simp)
  | none =>
      refine ⟨racing.keyed, racing.vacant, fun _ => racing.unset (by rw [running]; simp), ?_, ?_⟩
      · rw [State.abort_session_self]
        exact fun ended => by cases ended
      · rw [State.abort_session_self]
        exact fun ended => by cases ended

/-- In every run of one deletion and any number of registrations in which no
registration commits once the deletion has read its list of live domains, no
committed state has a deleted application with a live domain. -/
theorem deletedApplications_vacant (keyed : db.Keyed) (vacant : db.DeletedVacant)
    (own : ∀ index, (claims index).application.id = application.id)
    (open_ : ∀ row ∈ db.applications, row.id = application.id → row.deletedAt = none)
    (reaches : ReflTransGen (State.GuardedStep ClaimsFirst)
      (State.start db (race environment application confirmSlug deleteDomains now claims))
      state) :
    state.committed.DeletedVacant := by
  have racing : Racing environment application confirmSlug deleteDomains now claims db state := by
    induction reaches with
    | refl => exact ⟨keyed, vacant, fun _ => rfl, fun ended => (by cases ended), fun _ => .inl rfl⟩
    | @tail state next reaches step ih =>
        have safe := State.safeAt_of_reaches (race_guarantees environment application claims)
          (State.start_exclusive db _)
          (fun index => State.start_safeAt
            (race_safe environment application confirmSlug deleteDomains now claims db index))
          (State.GuardedStep.reaches reaches)
        obtain ⟨moved, ⟨enabled, claimsFirst, rfl⟩ | ⟨running, rfl⟩⟩ := step
        · cases commits : (state.session moved).commits with
          | false => exact ih.quiet enabled.1 commits
          | true =>
              obtain ⟨_, -, post⟩ := (safe moved).at_commit enabled.1 commits
              cases moved with
              | none => exact ih.deleted enabled.1 commits post
              | some index =>
                  exact ih.registered own open_ commits (claimsFirst (by simp) commits) post
        · exact ih.aborted running
  exact racing.vacant

end Race

/-- A registration whose credential was accepted while the application was
active. -/
def sampleClaims : Unit → ClaimRequest := fun _ =>
  ⟨sampleApplication, "forms.example.com", "workspace", ⟨2, 3, "token"⟩, 0⟩

def sampleRows : Database where
  applications := [sampleApplication]

def sampleRace : State store (Option Unit) Unit :=
  State.start sampleRows (race sampleEnvironment sampleApplication "acme" true 1 sampleClaims)

/-- The registration commits before the deletion lists. -/
def claimFirst : State store (Option Unit) Unit :=
  sampleRace.follow (List.replicate 16 (some ()) ++ List.replicate 17 none)

theorem deletedApplications_vacant_claimFirst :
    (claimFirst.session (some ())).status = .committed ∧
      (claimFirst.session none).status = .committed ∧ claimFirst.committed.DeletedVacant := by
  have guarded : ReflTransGen (State.GuardedStep ClaimsFirst) sampleRace claimFirst :=
    State.CanFollow.guarded (by decide +kernel)
  refine ⟨by decide +kernel, by decide +kernel, ?_⟩
  exact deletedApplications_vacant (show sampleRows.Keyed from List.nodup_nil) (by decide)
    (by decide) (by decide) guarded

/-- The registration commits between the list and the end of the deletion. -/
theorem deletedApplication_with_live_domain :
    ∃ state, ReflTransGen State.Step sampleRace state ∧ ¬ state.committed.DeletedVacant := by
  refine ⟨sampleRace.follow (List.replicate 2 none ++ List.replicate 16 (some ()) ++
    List.replicate 5 none), State.GuardedStep.reaches (State.CanFollow.guarded
      (show State.CanFollow (fun _ _ => True) sampleRace _ by decide +kernel)), ?_⟩
  decide +kernel

end CustomDomain
