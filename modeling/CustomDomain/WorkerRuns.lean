import CustomDomain.GuardedRuns
import CustomDomain.ServiceRuns
import Mathlib.Logic.Function.Basic

/-!
# Runs of the checks worker

Any number of workers in `process_domain` and the operations of the service,
interleaved transaction by transaction under one clock.  `perform` is what one
of them does next, and `Moves` says once what that can be.  The queries and the
probes are steps of their own, outside any transaction; each leaves a
`Sighting`, with the claim that was live at that moment.
-/

namespace CustomDomain.Checks

open Transaction

abbrev ClaimVersion := Uuid × String × String

/-- An observation: the claim it was made for, the claim that was live when it
was made, and the TXT records it saw. -/
structure Sighting where
  checkType : CheckType
  domainId : Uuid
  asked : Option ClaimVersion
  live : Option ClaimVersion
  values : List String := []

/-- What a run of `process_domain` knows once it has loaded the domain.
`loaded` are the objects in its session, which a commit does not expire, and
`seen` the observations it made since it last applied any. -/
structure Run where
  domainId : Uuid
  start : Time
  applicationId : Uuid
  loaded : Loaded
  statusBefore : DomainStatus
  edgeDue : Bool
  seen : List Sighting := []

/-- Where a worker is in `process_domain`. -/
inductive Phase where
  | idle
  | begun (domainId : Uuid) (now : Time)
  | chosen (domainId : Uuid) (now : Time) (types : List CheckType)
  | leased (domainId : Uuid) (now : Time) (types : List CheckType)
  | querying (run : Run)
  | owned (run : Run) (ownership : Outcome)
  | queried (run : Run) (ownership routing : Outcome) (zone : Option String)
  | between (run : Run)
  | probing (run : Run) (serving : Option VerifiedOrigin)
  | certified (run : Run) (serving : Option VerifiedOrigin) (certificate : Outcome)
  | probed (run : Run) (certificate origin : Outcome)

/-- `trail` are all observations ever made, `issued` the tokens of all claims
ever stored. -/
structure State (ι : Type) where
  db : Database
  clock : Time
  workers : ι → Phase
  trail : List Sighting := []
  issued : List String := []

/-- What the probes of a run meet. -/
structure Prober where
  formats : Formats
  disableHttps : Bool := false
  edge : Except ProbeFailure EdgeProbe
  workspace : Option (Except ProbeFailure WorkspaceProbe)

inductive Action (ι : Type) where
  | tick (at_ : Time)
  | begin (worker : ι) (domainId : Uuid)
  | choose (worker : ι)
  | lease (worker : ι)
  | load (worker : ι)
  | queryOwnership (worker : ι) (resolver : Resolver)
  | queryRouting (worker : ι) (resolver : Resolver) (zone : Option String)
  | applyDns (worker : ι)
  | reload (worker : ι)
  | probeCertificate (worker : ι) (prober : Prober)
  | probeOrigin (worker : ι) (prober : Prober)
  | applyEdge (worker : ι)
  | crash (worker : ι)
  | service (op : ServiceOp)

/-- The tokens of all stored claims. -/
def tokens (db : Database) : List String :=
  db.domains.flatMap fun domain => domain.claims.map (·.token)

/-- The live claim of a domain, as it is stored. -/
def liveClaim (db : Database) (domainId : Uuid) : Option ClaimVersion :=
  (db.domain? domainId).bind claimVersion

/-- The TXT records `ownership_outcome` reads. -/
def txtValues (resolver : Resolver) (domain : Domain) : List String :=
  match domain.activeClaim with
  | none => []
  | some claim =>
      match resolver.txt claim.txtRecordName with
      | .ok values => values
      | .error _ => []

/-- The operations that are not the worker's own. -/
def isExternal : ServiceOp → Bool
  | .applyDnsOutcomes _ _ _ _ | .applyEdgeOutcomes _ _ _ _ => false
  | _ => true

namespace Run

/-- The observation of a check, made now. -/
def sighting (run : Run) (db : Database) (checkType : CheckType) (values : List String) :
    Sighting where
  checkType := checkType
  domainId := run.domainId
  asked := claimVersion run.loaded.domain
  live := liveClaim db run.domainId
  values := values

def saw (run : Run) (sighting : Sighting) : Run := { run with seen := run.seen ++ [sighting] }

def dnsResults (run : Run) (ownership routing : Outcome) (zone : Option String) : DnsResults where
  queried := claimVersion run.loaded.domain
  ownership := ownership
  routing := routing
  zone := zone
  statusBefore := run.statusBefore
  edgeDue := run.edgeDue

def edgeResults (run : Run) (certificate origin : Outcome) : EdgeResults where
  probed := claimVersion run.loaded.domain
  certificate := certificate
  origin := origin

/-- The run after it applied its DNS outcomes. -/
def applied (run : Run) (loaded : Loaded) (edgeDue : Bool) : Run :=
  { run with loaded := loaded, edgeDue := edgeDue, seen := [] }

end Run

/-- The run that a load of the domain begins. -/
def beginRun (domainId : Uuid) (now : Time) (types : List CheckType) (loaded : Loaded) : Run where
  domainId := domainId
  start := now
  applicationId := loaded.domain.applicationId
  loaded := loaded
  statusBefore := loaded.domain.status
  edgeDue := types.any fun checkType => decide (checkType ∈ edgeCheckTypes)

namespace State

variable {ι : Type} [DecidableEq ι] (environment : Environment) (state : State ι)

/-- A worker's next phase, with the rows it commits and what it observed. -/
def advance (worker : ι) (phase : Phase) (db : Database) (seen : List Sighting) : State ι :=
  { state with
    db := db
    workers := Function.update state.workers worker phase
    trail := state.trail ++ seen }

/-- The worker is done; what it did not commit is rolled back. -/
def stop (worker : ι) : State ι := state.advance worker .idle state.db []

/-- One observation, after which the run is in the phase `next` says. -/
def observe (worker : ι) (run : Run) (checkType : CheckType) (values : List String)
    (next : Run → Phase) : State ι :=
  let sighting := run.sighting state.db checkType values
  state.advance worker (next (run.saw sighting)) state.db [sighting]

def choose (worker : ι) : Option (State ι) :=
  match state.workers worker with
  | .begun domainId now =>
      match (dueCheckTypes domainId now).run state.db with
      | (.ok (checkType :: rest), _) =>
          some (state.advance worker (.chosen domainId now (checkType :: rest)) state.db [])
      | _ => some (state.stop worker)
  | _ => none

def lease (worker : ι) : Option (State ι) :=
  match state.workers worker with
  | .chosen domainId now types =>
      match (leaseDomain domainId now types false).run state.db with
      | (.ok true, after) => some (state.advance worker (.leased domainId now types) after [])
      | _ => some (state.stop worker)
  | _ => none

/-- The first `_load`, with which the DNS phase begins if a DNS check was due. -/
def load (worker : ι) : Option (State ι) :=
  match state.workers worker with
  | .leased domainId now types =>
      match (loadDomain domainId).run state.db with
      | (.ok (some loaded), _) =>
          let run := beginRun domainId now types loaded
          let phase := if types.any fun checkType => decide (checkType ∈ dnsCheckTypes) then
            Phase.querying run else .between run
          some (state.advance worker phase state.db [])
      | _ => some (state.stop worker)
  | _ => none

def applyDns (worker : ι) : Option (State ι) :=
  match state.workers worker with
  | .queried run ownership routing zone =>
      match (applyDnsPhase run.domainId run.applicationId
          (run.dnsResults ownership routing zone) state.clock).run state.db with
      | (.ok .discarded, after) => some (state.advance worker .idle after [])
      | (.ok (.applied domain edgeDue), after) =>
          let loaded := ⟨domain, state.db.application? domain.applicationId⟩
          some (state.advance worker (.between (run.applied loaded edgeDue)) after [])
      | _ => some (state.stop worker)
  | _ => none

/-- The second `_load`: the database says whether the domain is still there, but
what comes back is the object the session holds. -/
def reload (worker : ι) : Option (State ι) :=
  match state.workers worker with
  | .between run =>
      if ((state.db.domain? run.domainId).any (·.isLive)) = true ∧
          run.loaded.domain.status ≠ .deleting ∧ run.edgeDue = true ∧
          eligibleForEdgeChecks run.loaded = true then
        some (state.advance worker
          (.probing run (run.loaded.application.bind (servingOrigin state.db))) state.db [])
      else some (state.stop worker)
  | _ => none

def applyEdge (worker : ι) : Option (State ι) :=
  match state.workers worker with
  | .probed run certificate origin =>
      match (applyEdgePhase run.domainId run.applicationId
          (run.edgeResults certificate origin) state.clock).run state.db with
      | (.ok (.applied _), after) => some (state.advance worker .idle after [])
      | _ => some (state.stop worker)
  | _ => none

/-- An operation of the service.  A new claim gets a token that no claim ever
had. -/
def serve (op : ServiceOp) : Option (State ι) :=
  let after := op.run environment state.db
  if isExternal op = true ∧
      ∀ token ∈ tokens after, token ∈ tokens state.db ∨ token ∉ state.issued then
    some { state with db := after, issued := state.issued ++ tokens after }
  else none

/-- What one participant does next, if it can. -/
def perform : Action ι → Option (State ι)
  | .tick at_ => if state.clock ≤ at_ then some { state with clock := at_ } else none
  | .begin worker domainId =>
      match state.workers worker with
      | .idle => some (state.advance worker (.begun domainId state.clock) state.db [])
      | _ => none
  | .choose worker => state.choose worker
  | .lease worker => state.lease worker
  | .load worker => state.load worker
  | .queryOwnership worker resolver =>
      match state.workers worker with
      | .querying run =>
          some (state.observe worker run .ownership (txtValues resolver run.loaded.domain)
            (.owned · (ownershipOutcome resolver run.loaded.domain)))
      | _ => none
  | .queryRouting worker resolver zone =>
      match state.workers worker with
      | .owned run ownership =>
          some (state.observe worker run .routing []
            (.queried · ownership (routingOutcome resolver run.loaded.domain) zone))
      | _ => none
  | .applyDns worker => state.applyDns worker
  | .reload worker => state.reload worker
  | .probeCertificate worker prober =>
      match state.workers worker with
      | .probing run serving =>
          some (state.observe worker run .certificate []
            (.certified · serving (certificateOutcome prober.formats prober.edge
              run.loaded.domain prober.disableHttps state.clock)))
      | _ => none
  | .probeOrigin worker prober =>
      match state.workers worker with
      | .certified run serving certificate =>
          some (state.observe worker run .origin []
            (.probed · certificate (originOutcome prober.formats run.loaded.domain
              run.loaded.application serving prober.workspace)))
      | _ => none
  | .applyEdge worker => state.applyEdge worker
  | .crash worker => some (state.stop worker)
  | .service op => state.serve environment op

end State

/-! ## What a step can do -/

/-- The checks that a lease of `types` takes. -/
def leasable (now : Time) (types : List CheckType) (check : DomainCheck) : Bool :=
  decide (check.checkType ∈ types) && (false || check.due now)

section Moves

variable {ι : Type} [DecidableEq ι] (environment : Environment) (state : State ι)

/-- Every way in which the system can move on. -/
inductive Moves : Action ι → State ι → Prop where
  | tick {at_ : Time} (later : state.clock ≤ at_) : Moves (.tick at_) { state with clock := at_ }
  | begin {worker : ι} {domainId : Uuid} (held : state.workers worker = .idle) :
      Moves (.begin worker domainId)
        (state.advance worker (.begun domainId state.clock) state.db [])
  | choose {worker : ι} {domainId : Uuid} {now : Time} {types : List CheckType}
      (held : state.workers worker = .begun domainId now) :
      Moves (.choose worker) (state.advance worker (.chosen domainId now types) state.db [])
  | lease {worker : ι} {now : Time} {types : List CheckType} {domain : Domain}
      {after : Database} (held : state.workers worker = .chosen domain.id now types)
      (member : domain ∈ state.db.domains)
      (holds : Holds state.db (domain.scheduled (leasable now types) (now + CustomDomain.lease))
        after) :
      Moves (.lease worker) (state.advance worker (.leased domain.id now types) after [])
  | loadDns {worker : ι} {domainId : Uuid} {now : Time} {types : List CheckType} {loaded : Loaded}
      (held : state.workers worker = .leased domainId now types)
      (loads : state.db.Loads domainId loaded.domain)
      (due : types.any (fun checkType => decide (checkType ∈ dnsCheckTypes)) = true) :
      Moves (.load worker)
        (state.advance worker (.querying (beginRun domainId now types loaded)) state.db [])
  | loadEdge {worker : ι} {domainId : Uuid} {now : Time} {types : List CheckType}
      {loaded : Loaded} (held : state.workers worker = .leased domainId now types)
      (loads : state.db.Loads domainId loaded.domain) :
      Moves (.load worker)
        (state.advance worker (.between (beginRun domainId now types loaded)) state.db [])
  | queryOwnership {worker : ι} {resolver : Resolver} {run : Run}
      (held : state.workers worker = .querying run) :
      Moves (.queryOwnership worker resolver)
        (state.observe worker run .ownership (txtValues resolver run.loaded.domain)
          (.owned · (ownershipOutcome resolver run.loaded.domain)))
  | queryRouting {worker : ι} {resolver : Resolver} {zone : Option String} {run : Run}
      {ownership : Outcome} (held : state.workers worker = .owned run ownership) :
      Moves (.queryRouting worker resolver zone)
        (state.observe worker run .routing []
          (.queried · ownership (routingOutcome resolver run.loaded.domain) zone))
  | discardDns {worker : ι} {run : Run} {ownership routing : Outcome} {zone : Option String}
      {domain : Domain} {after : Database}
      (held : state.workers worker = .queried run ownership routing zone)
      (loads : state.db.Loads run.domainId domain)
      (holds : Holds state.db (domain.scheduled
        (fun check => decide (check.checkType ∈ dnsCheckTypes)) state.clock) after) :
      Moves (.applyDns worker) (state.advance worker .idle after [])
  | applyDns {worker : ι} {run : Run} {ownership routing : Outcome} {zone : Option String}
      {domain value : Domain} {edgeDue : Bool} {after : Database}
      (held : state.workers worker = .queried run ownership routing zone)
      (loads : state.db.Loads run.domainId domain)
      (own : claimVersion domain = claimVersion run.loaded.domain)
      (result : value = (domain.dnsApplied ownership routing state.clock).zoned zone state.clock)
      (due : edgeDue = true → run.edgeDue = true ∨ value.status ≠ run.statusBefore)
      (holds : Holds state.db (value.edgeLeased run.statusBefore run.edgeDue state.clock) after) :
      Moves (.applyDns worker)
        (state.advance worker (.between (run.applied
          ⟨value, state.db.application? value.applicationId⟩ edgeDue)) after [])
  | reload {worker : ι} {run : Run} (held : state.workers worker = .between run)
      (due : run.edgeDue = true) {serving : Option VerifiedOrigin} :
      Moves (.reload worker) (state.advance worker (.probing run serving) state.db [])
  | probeCertificate {worker : ι} {prober : Prober} {run : Run} {serving : Option VerifiedOrigin}
      (held : state.workers worker = .probing run serving) :
      Moves (.probeCertificate worker prober)
        (state.observe worker run .certificate []
          (.certified · serving (certificateOutcome prober.formats prober.edge
            run.loaded.domain prober.disableHttps state.clock)))
  | probeOrigin {worker : ι} {prober : Prober} {run : Run} {serving : Option VerifiedOrigin}
      {certificate : Outcome} (held : state.workers worker = .certified run serving certificate) :
      Moves (.probeOrigin worker prober)
        (state.observe worker run .origin []
          (.probed · certificate (originOutcome prober.formats run.loaded.domain
            run.loaded.application serving prober.workspace)))
  | applyEdge {worker : ι} {run : Run} {certificate origin : Outcome} {domain : Domain}
      {after : Database} (held : state.workers worker = .probed run certificate origin)
      (loads : state.db.Loads run.domainId domain)
      (own : claimVersion domain = claimVersion run.loaded.domain)
      (holds : Holds state.db (domain.edgeApplied certificate origin state.clock) after) :
      Moves (.applyEdge worker) (state.advance worker .idle after [])
  | stop {action : Action ι} (worker : ι) : Moves action (state.stop worker)
  | service {op : ServiceOp} (external : isExternal op = true)
      (unused : ∀ token ∈ tokens (op.run environment state.db),
        token ∈ tokens state.db ∨ token ∉ state.issued) :
      Moves (.service op)
        { state with
          db := op.run environment state.db
          issued := state.issued ++ tokens (op.run environment state.db) }

end Moves

section Perform

variable {ι : Type} [DecidableEq ι] {environment : Environment} {state after : State ι}
  (keyed : state.db.Keyed) (sound : ∀ domain ∈ state.db.domains, domain.Sound)

theorem choose_moves {worker : ι} (performed : state.choose worker = some after) :
    Moves environment state (.choose worker) after := by
  unfold State.choose at performed
  split at performed
  next domainId now held =>
    split at performed
    next checkType rest later ran =>
      cases performed
      exact .choose held
    next =>
      cases performed
      exact .stop worker
  next => cases performed

include keyed

omit [DecidableEq ι] in
/-- A lease that takes a check: the domain is stored, and the checks are
leased. -/
theorem leaseDomain_takes {domainId : Uuid} {now : Time} {types : List CheckType}
    {rows : Database}
    (ran : (leaseDomain domainId now types false).run state.db = (.ok true, rows)) :
    ∃ domain ∈ state.db.domains, domain.id = domainId ∧
      Holds state.db (domain.scheduled (leasable now types) (now + lease)) rows := by
  cases found : state.db.domain? domainId with
  | none =>
      have refused : ((leaseDomain domainId now types false).run state.db).1 = .ok false := by
        simp only [leaseDomain, setNextCheck, Program.run_write, selectedChecks, found]
        rfl
      rw [ran] at refused
      cases refused
  | some domain =>
      obtain ⟨rfl, member⟩ := Database.domain?_id found
      exact ⟨domain, member, rfl,
        (setNextCheck_spec (Holds.self keyed member) (leasable now types) _).result ran⟩

theorem lease_moves {worker : ι} (performed : state.lease worker = some after) :
    Moves environment state (.lease worker) after := by
  unfold State.lease at performed
  split at performed
  next domainId now types held =>
    split at performed
    next rows ran =>
      cases performed
      obtain ⟨domain, member, rfl, holds⟩ := leaseDomain_takes keyed ran
      exact .lease held member holds
    next =>
      cases performed
      exact .stop worker
  next => cases performed

omit keyed in
theorem load_moves {worker : ι} (performed : state.load worker = some after) :
    Moves environment state (.load worker) after := by
  unfold State.load at performed
  split at performed
  next domainId now types held =>
    split at performed
    next loaded rows ran =>
      obtain ⟨-, facts⟩ := (loadDomain_spec domainId state.db).result ran
      have loads := (facts loaded rfl).1
      cases performed
      split
      next due => exact .loadDns held loads due
      next => exact .loadEdge held loads
    next =>
      cases performed
      exact .stop worker
  next => cases performed

include sound

theorem applyDns_moves {worker : ι} (performed : state.applyDns worker = some after) :
    Moves environment state (.applyDns worker) after := by
  unfold State.applyDns at performed
  split at performed
  next run ownership routing zone held =>
    have spec := applyDnsPhase_spec keyed sound run.domainId run.applicationId
      (run.dnsResults ownership routing zone) state.clock
    split at performed
    next rows ran =>
      obtain ⟨domain, loads, -, holds⟩ := spec.result ran
      cases performed
      exact .discardDns held loads holds
    next value edgeDue rows ran =>
      obtain ⟨domain, loads, own, result, due, holds⟩ := spec.result ran
      cases performed
      exact .applyDns held loads own result due holds
    next =>
      cases performed
      exact .stop worker
  next => cases performed

theorem applyEdge_moves {worker : ι} (performed : state.applyEdge worker = some after) :
    Moves environment state (.applyEdge worker) after := by
  unfold State.applyEdge at performed
  split at performed
  next run certificate origin held =>
    split at performed
    next value rows ran =>
      obtain ⟨domain, loads, -, own, rfl, holds⟩ :=
        (applyEdgePhase_spec keyed sound run.domainId run.applicationId
          (run.edgeResults certificate origin) state.clock).result ran
      cases performed
      exact .applyEdge held loads own holds
    next =>
      cases performed
      exact .stop worker
  next => cases performed

/-- Every step is one of the moves. -/
theorem perform_moves {action : Action ι} (performed : state.perform environment action = some after) :
    Moves environment state action after := by
  cases action with
  | tick at_ =>
      simp only [State.perform] at performed
      split at performed
      next later =>
        cases performed
        exact .tick later
      next => cases performed
  | begin worker domainId =>
      simp only [State.perform] at performed
      split at performed
      next held =>
        cases performed
        exact .begin held
      next => cases performed
  | choose worker => exact choose_moves performed
  | lease worker => exact lease_moves keyed performed
  | load worker => exact load_moves performed
  | queryOwnership worker resolver =>
      simp only [State.perform] at performed
      split at performed
      next run held =>
        cases performed
        exact .queryOwnership held
      next => cases performed
  | queryRouting worker resolver zone =>
      simp only [State.perform] at performed
      split at performed
      next run ownership held =>
        cases performed
        exact .queryRouting held
      next => cases performed
  | applyDns worker => exact applyDns_moves keyed sound performed
  | reload worker =>
      simp only [State.perform, State.reload] at performed
      split at performed
      next run held =>
        split at performed
        next kept =>
          cases performed
          exact .reload held kept.2.2.1
        next =>
          cases performed
          exact .stop worker
      next => cases performed
  | probeCertificate worker prober =>
      simp only [State.perform] at performed
      split at performed
      next run serving held =>
        cases performed
        exact .probeCertificate held
      next => cases performed
  | probeOrigin worker prober =>
      simp only [State.perform] at performed
      split at performed
      next run serving certificate held =>
        cases performed
        exact .probeOrigin held
      next => cases performed
  | applyEdge worker => exact applyEdge_moves keyed sound performed
  | crash worker =>
      cases performed
      exact .stop worker
  | service op =>
      simp only [State.perform, State.serve] at performed
      split at performed
      next allowed =>
        cases performed
        exact .service allowed.1 allowed.2
      next => cases performed

end Perform

/-! ## Runs -/

section Runs

variable {ι : Type} [DecidableEq ι] {environment : Environment} {state after : State ι}

/-- Every move keeps the database consistent. -/
theorem Moves.consistent {action : Action ι} (moves : Moves environment state action after)
    (consistent : state.db.Consistent environment) : after.db.Consistent environment := by
  have rescheduled : ∀ {domain next : Domain} {rows : Database}, domain ∈ state.db.domains →
      domain.Rescheduled next → Holds state.db next rows → rows.Consistent environment :=
    fun member same holds => consistent.alike member same.alike
      (same.sound (consistent.sound _ member)) same.isLive holds
  cases moves with
  | lease held member holds => exact rescheduled member (Domain.scheduled_rescheduled _ _ _) holds
  | discardDns held loads holds =>
      exact rescheduled loads.1 (Domain.scheduled_rescheduled _ _ _) holds
  | @applyDns worker run ownership routing zone domain value edgeDue rows held loads own result
      due holds =>
      subst result
      have sound := (consistent.sound domain loads.1).dnsApplied loads.2.2.1 ownership routing
        state.clock
      have same := ((domain.dnsApplied ownership routing state.clock).zoned_rescheduled zone
        state.clock).trans (Domain.edgeLeased_rescheduled _ run.statusBefore run.edgeDue state.clock)
      exact consistent.alike loads.1
        ((domain.dnsApplied_alike ownership routing state.clock).trans same.alike)
        (same.sound sound) (same.isLive.trans (domain.dnsApplied_isLive _ _ _)) holds
  | @applyEdge worker run certificate origin domain rows held loads own holds =>
      have kept := domain.edgeApplied_kept certificate origin state.clock
      exact consistent.alike loads.1 kept.alike
        ((consistent.sound _ loads.1).edgeApplied loads.2.2.1 _ _ _) kept.isLive holds
  | @service op external unused =>
      exact consistent.step (ServiceOp.step consistent op.admits_any)
  | _ => exact consistent

/-- The states of the runs all whose steps meet the condition. -/
abbrev Reaches (environment : Environment) (condition : State ι → Action ι → State ι → Prop) :
    State ι → State ι → Prop :=
  GuardedRuns.Reaches (State.perform environment) condition

/-- What every move keeps holds in every state reached. -/
theorem Reaches.keeps {condition : State ι → Action ι → State ι → Prop} {start : State ι}
    (reaches : Reaches environment condition start state) (holds : State ι → Prop)
    (consistent : start.db.Consistent environment) (first : holds start)
    (kept : ∀ {state after : State ι} {action : Action ι},
      state.db.Consistent environment → Moves environment state action after →
      condition state action after → holds state → holds after) :
    state.db.Consistent environment ∧ holds state := by
  refine GuardedRuns.Reaches.keeps reaches
    (fun state => state.db.Consistent environment ∧ holds state) ⟨consistent, first⟩ ?_
  rintro state after action performed met ⟨consistent, held⟩
  have moves := perform_moves consistent.keyed consistent.sound performed
  exact ⟨moves.consistent consistent, kept consistent moves met held⟩

end Runs

end CustomDomain.Checks
