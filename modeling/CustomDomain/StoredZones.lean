import CustomDomain.WorkerClaims
import CustomDomain.Zones

/-!
# The zones that are stored

`ZoneDetector.refresh`, and what becomes of a domain's zone over the runs of the workers and the
service.  A worker asks with the hostname and the zone of the object in its session; what it stores
later goes to a row of the same claim, which has the same hostname.
-/

namespace CustomDomain

/-! ## What the operations leave of a zone -/

namespace Domain

variable (domain : Domain) (now : Time)

theorem changeClaim_zone (change : OwnershipClaim → OwnershipClaim) :
    (domain.changeClaim change).zone = domain.zone := by
  rw [changeClaim]
  split <;> rfl

theorem proven_zone : (domain.proven now).zone = domain.zone := by
  unfold proven
  split
  next => exact changeClaim_zone _ _
  next => rfl

theorem passedDns_zone : (domain.passedDns now).zone = domain.zone := by
  rw [passedDns, ← domain.proven_zone now]
  split
  next => rfl
  next => split <;> rfl

theorem failedDns_zone (ownership : Outcome) :
    (domain.failedDns ownership now).zone = domain.zone := by
  unfold failedDns
  split
  next => rfl
  next => split <;> rfl

theorem dnsApplied_zone (ownership routing : Outcome) :
    (domain.dnsApplied ownership routing now).zone = domain.zone := by
  have recorded := ((domain.outcomeRecorded_kept .ownership ownership
    (fastRecheckDue domain now) now).trans (outcomeRecorded_kept _ .routing routing
    (fastRecheckDue domain now) now)).zone
  rw [dnsApplied]
  split
  next => exact (passedDns_zone _ now).trans recorded
  next => exact (failedDns_zone _ now ownership).trans recorded

theorem reissued_zone {domain : Domain} (sound : domain.Sound) (live : domain.isLive = true)
    (claimId : Uuid) (token cnameTarget : String) (now : Time) :
    (domain.reissued claimId token cnameTarget now).zone = domain.zone :=
  (reset_facts sound live now).1.zone.trans (changeClaim_zone _ _)

theorem tombstoned_zone : (domain.tombstoned now).zone = domain.zone :=
  changeClaim_zone _ _

theorem adopted_zone : (domain.adopted now).zone = domain.zone :=
  ((moved_kept _ _ _).zone.trans (observed_kept _ _ _).zone).trans (changeClaim_zone _ _)

theorem zoned_zone (zone : Option String) :
    (domain.zoned zone now).zone = if zone.isSome then zone else domain.zone := by
  unfold zoned
  by_cases answered : zone.isSome = true
  · rw [if_pos answered]
    split
    next => rfl
    next unchanged =>
      by_contra differs
      exact unchanged ⟨answered, differs⟩
  · rw [if_neg answered, if_neg fun both => answered both.1]

theorem edgeLeased_zone (statusBefore : DomainStatus) (edgeDue : Bool) :
    (domain.edgeLeased statusBefore edgeDue now).zone = domain.zone := by
  unfold edgeLeased
  split <;> rfl

end Domain

theorem Evolves.zone {admits : Outcome → Prop} {db : Database} {domain next : Domain}
    (sound : domain.Sound) (evolves : Evolves admits db domain next) : next.zone = domain.zone := by
  cases evolves with
  | dns live admitted now => exact domain.dnsApplied_zone now _ _
  | edge live admitted now => exact (domain.edgeApplied_kept _ _ now).zone
  | reissued live owner unseen now => exact Domain.reissued_zone sound live _ _ _ now
  | tombstoned live now => exact domain.tombstoned_zone now
  | rescheduled live same zone => exact zone

/-! ## What a transaction leaves of the zones -/

/-- A row is as it was in what a zone depends on, or it is new, with the zone assumed for it. -/
def Located (environment : Environment) (db : Database) (row : Domain) : Prop :=
  (∃ old ∈ db.domains, old.id = row.id ∧ old.hostname = row.hostname ∧ old.zone = row.zone) ∨
    ((∀ old ∈ db.domains, old.id ≠ row.id) ∧
      row.zone = some (Zones.defaultZone environment.tables row.hostname))

/-- Changes keep all rows located, and delete none. -/
structure ZoneFlow (environment : Environment) (db after : Database) : Prop where
  kept : ∀ old ∈ db.domains, ∃ row ∈ after.domains, row.id = old.id
  rows : ∀ row ∈ after.domains, Located environment db row

section Flow

variable {environment : Environment} {admits : Outcome → Prop} {db middle after : Database}

theorem ZoneFlow.of_same (same : after.domains = db.domains) : ZoneFlow environment db after where
  kept old member := ⟨old, same ▸ member, rfl⟩
  rows row member := .inl ⟨row, same ▸ member, rfl, rfl, rfl⟩

theorem ZoneFlow.trans (left : ZoneFlow environment db middle)
    (right : ZoneFlow environment middle after) : ZoneFlow environment db after where
  kept old member := by
    obtain ⟨row, present, same⟩ := left.kept old member
    obtain ⟨last, stored, also⟩ := right.kept row present
    exact ⟨last, stored, also.trans same⟩
  rows row member := by
    rcases right.rows row member with ⟨between, present, id, hostname, zone⟩ | ⟨new, zone⟩
    · rcases left.rows between present with ⟨old, stored, id', hostname', zone'⟩ | ⟨new, default⟩
      · exact .inl ⟨old, stored, id'.trans id, hostname'.trans hostname, zone'.trans zone⟩
      · rw [id] at new
        rw [zone, hostname] at default
        exact .inr ⟨new, default⟩
    · refine .inr ⟨fun old stored same => ?_, zone⟩
      obtain ⟨between, present, also⟩ := left.kept old stored
      exact new between present (also.trans same)

theorem ZoneFlow.of_holds {domain next : Domain} (member : domain ∈ db.domains)
    (id : next.id = domain.id) (hostname : next.hostname = domain.hostname)
    (zone : next.zone = domain.zone) (holds : Holds db next after) :
    ZoneFlow environment db after where
  kept old stored := by
    rw [holds.domains]
    refine ⟨_, List.mem_map_of_mem stored, ?_⟩
    split
    next same => exact same.symm
    next => rfl
  rows row stored := by
    rw [holds.domains] at stored
    obtain ⟨old, present, rfl⟩ := List.mem_map.mp stored
    split
    next => exact .inl ⟨domain, member, id.symm, hostname.symm, zone.symm⟩
    next => exact .inl ⟨old, present, rfl, rfl, rfl⟩

theorem ZoneFlow.registered {application : Application} {hostname reference : String} {fresh : Fresh}
    {now : Time} {domain : Domain}
    (registration : Registration environment application hostname reference fresh now db domain)
    {adopted : Bool} (adds : Adds db (if adopted then domain.adopted now else domain) after) :
    ZoneFlow environment db after where
  kept old stored := ⟨old, by rw [adds.domains]; exact List.mem_append_left _ stored, rfl⟩
  rows row stored := by
    have zone : domain.zone = some (Zones.defaultZone environment.tables domain.hostname) := by
      conv_lhs => rw [registration.eq]
      rfl
    have id : domain.id = fresh.domainId := by
      rw [registration.eq]
      rfl
    have new : ∀ old ∈ db.domains, old.id ≠ domain.id := by
      intro old present same
      have unused := List.find?_eq_none.mp registration.unused old present
      exact unused (by simpa using same.trans id)
    rw [adds.domains, List.mem_append, List.mem_singleton] at stored
    rcases stored with old | rfl
    · exact .inl ⟨row, old, rfl, rfl, rfl⟩
    · split
      next =>
        have alike := domain.adopted_alike now
        exact .inr ⟨fun old present => by rw [alike.id]; exact new old present,
          by rw [domain.adopted_zone now, alike.hostname]; exact zone⟩
      next => exact .inr ⟨new, zone⟩

theorem Change.zoneFlow (consistent : db.Consistent environment)
    (change : Change environment admits db after) : ZoneFlow environment db after := by
  cases change with
  | quiet same => exact .of_same same.domains
  | registered owner registration adopted adds => exact .registered registration adds
  | evolved member evolves holds =>
      have sound := consistent.sound _ member
      obtain ⟨id, -, hostname, -⟩ := evolves.frame sound
      exact .of_holds member id hostname (evolves.zone sound) holds
  | _ => exact .of_same rfl

theorem ServiceStep.located (consistent : db.Consistent environment)
    (step : ServiceStep environment admits db after) :
    ∀ row ∈ after.domains, Located environment db row := by
  rcases step with changes | ⟨now, rfl⟩
  · have flow : ZoneFlow environment db after := by
      induction changes with
      | refl => exact .of_same rfl
      | tail earlier change ih =>
          exact ih.trans (Change.zoneFlow (consistent.changes earlier) change)
    exact flow.rows
  · intro row member
    exact .inl ⟨row, List.mem_of_mem_filter member, rfl, rfl, rfl⟩

end Flow

namespace Checks

open Zones (Encloses EndsAtLabel ZoneLookup findZone encloses_findZone encloses_defaultZone)

/-! ## The detector -/

/-- A row of `dns_zones`, as far as `refresh` reads it. -/
structure CachedZone extends DnsZone where
  template : Option String

/-- What one `refresh` meets; each part may raise. -/
structure Detection where
  template : Except Unit (Option String)
  cached : String → Except Unit (Option CachedZone)
  resolver : Except Unit (String → Except DnsError (List String))
  discover : String → Except Unit Unit
  store : ZoneLookup → Except Unit Unit

/-- `_fresh`. -/
def fresh (zone : Option CachedZone) (now : Time) (template : Option String) : Bool :=
  zone.any fun zone => decide (now < zone.expiresAt) && decide (zone.template = template)

/-- `_is_fresh`. -/
def Detection.isFresh (detection : Detection) (zone : String) (now : Time)
    (template : Option String) : Except Unit Bool := do
  let row ← detection.cached zone
  pure (fresh row now template)

/-- The zone already known, while its row is fresh. -/
def Detection.knownFresh (detection : Detection) (known : Option String) (now : Time)
    (template : Option String) : Except Unit (Option String) :=
  match known with
  | some zone => do
      let still ← detection.isFresh zone now template
      pure (if still then some zone else none)
  | none => pure none

/-- The zone found is another one, and its row is fresh. -/
def Detection.otherFresh (detection : Detection) (zone : String) (known : Option String)
    (now : Time) (template : Option String) : Except Unit Bool :=
  if some zone ≠ known then detection.isFresh zone now template else pure false

/-- The body of `refresh`. -/
def Detection.detect (detection : Detection) (tables : NameTables) (hostname : String)
    (known : Option String) (now : Time) : Except Unit String := do
  let template ← detection.template
  let kept ← detection.knownFresh known now template
  match kept with
  | some zone => pure zone
  | none => do
      let ns ← detection.resolver
      let lookup := findZone tables ns hostname
      let other ← detection.otherFresh lookup.zone known now template
      if other then pure lookup.zone
      else do
        detection.discover lookup.zone
        detection.store lookup
        pure lookup.zone

/-- `refresh`: whatever is raised is logged, and there is no zone. -/
def Detection.refresh (detection : Detection) (tables : NameTables) (hostname : String)
    (known : Option String) (now : Time) : Option String :=
  (detection.detect tables hostname known now).toOption

section Detector

variable {detection : Detection} {tables : NameTables} {hostname zone : String}
  {known : Option String} {now : Time}

theorem bind_ok {α β : Type} {first : Except Unit α} {rest : α → Except Unit β} {result : β}
    (ran : first >>= rest = .ok result) : ∃ value, first = .ok value ∧ rest value = .ok result := by
  cases first with
  | error failure => cases ran
  | ok value => exact ⟨value, rfl, ran⟩

/-- The zone is the one it was asked with, or one that `find_zone` returns. -/
theorem Detection.refresh_cases (refreshed : detection.refresh tables hostname known now = some zone) :
    known = some zone ∨ ∃ ns, zone = (findZone tables ns hostname).zone := by
  have detected : detection.detect tables hostname known now = .ok zone := by
    unfold Detection.refresh at refreshed
    cases ran : detection.detect tables hostname known now with
    | error failure =>
        rw [ran] at refreshed
        cases refreshed
    | ok value =>
        rw [ran] at refreshed
        exact congrArg Except.ok (Option.some.inj refreshed)
  obtain ⟨template, -, detected⟩ := bind_ok detected
  obtain ⟨kept, asked, detected⟩ := bind_ok detected
  cases kept with
  | some value =>
      obtain rfl : value = zone := Except.ok.inj detected
      cases known with
      | none => cases asked
      | some current =>
          obtain ⟨still, -, answer⟩ := bind_ok asked
          cases still with
          | true =>
              have same : some current = some value := Except.ok.inj answer
              exact .inl same
          | false => cases answer
  | none =>
      obtain ⟨ns, -, detected⟩ := bind_ok detected
      obtain ⟨other, -, detected⟩ := bind_ok detected
      right
      refine ⟨ns, ?_⟩
      cases other with
      | true => exact (Except.ok.inj detected).symm
      | false =>
          obtain ⟨_, -, detected⟩ := bind_ok detected
          obtain ⟨_, -, detected⟩ := bind_ok detected
          exact (Except.ok.inj detected).symm

end Detector

/-! ## The runs of the workers -/

section Runs

variable {ι : Type} {environment : Environment} {state after : State ι}

/-- The zone of a routing query comes from the detector, which was asked with the hostname and the
zone of the domain in the worker's session, or there is no detector. -/
def ZonesDetected (environment : Environment) (state : State ι) (action : Action ι)
    (_ : State ι) : Prop :=
  ∀ worker resolver zone run ownership, action = .queryRouting worker resolver zone →
    state.workers worker = .owned run ownership →
      zone = none ∨ ∃ (detection : Detection) (now : Time), zone =
        detection.refresh environment.tables run.loaded.domain.hostname run.loaded.domain.zone now

/-- What a run was asked with: a canonical hostname, which is that of every row with the claim of
its session, and a zone that encloses it. -/
structure Asks (environment : Environment) (db : Database) (domain : Domain) : Prop where
  canonical : IsCanonical environment false domain.hostname
  zone : ∀ zone ∈ domain.zone, Encloses domain.hostname zone
  hostname : ∀ row ∈ db.domains, claimVersion row = claimVersion domain →
    row.hostname = domain.hostname

/-- The zone a worker is about to store encloses the hostname it asked for. -/
def Phase.Encloses : Phase → Prop
  | .queried run _ _ zone => ∀ name ∈ zone, Zones.Encloses run.loaded.domain.hostname name
  | _ => True

/-- Every stored zone encloses its hostname, and every worker asks for such a row. -/
structure Zoned (environment : Environment) (state : State ι) : Prop where
  stored : ∀ domain ∈ state.db.domains, ∃ zone, domain.zone = some zone ∧
    Encloses domain.hostname zone
  asks : ∀ worker, ∀ run ∈ (state.workers worker).run?, Asks environment state.db run.loaded.domain
  phases : ∀ worker, (state.workers worker).Encloses

/-- The hostname of a claim does not change: a row with a claim that was live before has the
hostname that the claim was live for. -/
def HostnamesKept (state : State ι) (after : Database) : Prop :=
  ∀ row ∈ after.domains, ∀ found, claimVersion row = some found →
    (∃ old ∈ state.db.domains, claimVersion old = some found ∧ old.hostname = row.hostname) ∨
      found.2.1 ∉ state.issued

theorem HostnamesKept.of_holds {domain next : Domain} {rows : Database}
    (member : domain ∈ state.db.domains) (version : claimVersion next = claimVersion domain)
    (hostname : next.hostname = domain.hostname) (holds : Holds state.db next rows) :
    HostnamesKept state rows := by
  intro row stored found live
  rw [holds.domains] at stored
  obtain ⟨old, present, rfl⟩ := List.mem_map.mp stored
  split at live
  next same =>
    rw [if_pos same]
    exact .inl ⟨domain, member, version.symm.trans live, hostname.symm⟩
  next other =>
    rw [if_neg other]
    exact .inl ⟨old, present, live, rfl⟩

variable (consistent : state.db.Consistent environment) (traced : Traced state)

include consistent

theorem HostnamesKept.of_service {op : ServiceOp} (external : isExternal op = true)
    (unused : ∀ token ∈ tokens (op.run environment state.db),
      token ∈ tokens state.db ∨ token ∉ state.issued) :
    HostnamesKept state (op.run environment state.db) := by
  intro row member found live
  have flow : Flow (fun _ _ => True) (fun _ _ _ => True) state.db (op.run environment state.db) :=
    external_flow consistent external
  rcases flow.live row member found live with ⟨old, stored, id, lived⟩ | new
  · left
    refine ⟨old, stored, lived, ?_⟩
    rcases (ServiceOp.step consistent op.admits_any).located consistent row member with
      ⟨same, present, sameId, hostname, -⟩ | ⟨elsewhere, -⟩
    · have rows : old = same :=
        List.inj_on_of_nodup_map consistent.keyed stored present (id.trans sameId.symm)
      rw [rows, hostname]
    · exact absurd id (elsewhere old stored)
  · have lives : Lives (op.run environment state.db) row.id found := ⟨row, member, rfl, live⟩
    exact .inr ((unused _ lives.mem_tokens).resolve_left new)

include traced

/-- A stored live domain has its claim alone. -/
theorem Asks.of_stored {domain : Domain} (member : domain ∈ state.db.domains)
    (live : domain.isLive = true)
    (zone : ∀ zone ∈ domain.zone, Encloses domain.hostname zone) :
    Asks environment state.db domain := by
  refine ⟨consistent.hostname domain member, zone, fun row stored same => ?_⟩
  obtain ⟨claim, -, active⟩ := (consistent.sound domain member).activeClaim live
  have version : claimVersion domain = some (version claim) := by
    rw [claimVersion_eq, active]
    rfl
  have left : Lives state.db row.id (Checks.version claim) := ⟨row, stored, rfl, same.trans version⟩
  have right : Lives state.db domain.id (Checks.version claim) := ⟨domain, member, rfl, version⟩
  have ids := (left.unique consistent traced.unique right rfl).1
  have rows : row = domain := List.inj_on_of_nodup_map consistent.keyed stored member ids
  rw [rows]

omit consistent in
theorem Asks.onward {rows : Database} {run : Run} (follows : Follows state run)
    (asks : Asks environment state.db run.loaded.domain) (kept : HostnamesKept state rows) :
    Asks environment rows run.loaded.domain := by
  refine ⟨asks.canonical, asks.zone, fun row member same => ?_⟩
  obtain ⟨found, version, lives | dead⟩ := follows.claim
  · rcases kept row member found (same.trans version) with ⟨old, stored, lived, hostname⟩ | new
    · rw [← hostname]
      exact asks.hostname old stored (lived.trans version.symm)
    · exact absurd (traced.issued _ lives.mem_tokens) new
  · rcases kept row member found (same.trans version) with ⟨old, stored, lived, hostname⟩ | new
    · rw [← hostname]
      exact asks.hostname old stored (lived.trans version.symm)
    · exact absurd dead.1 new

variable [DecidableEq ι]

omit consistent in
/-- A worker moves on. -/
theorem Zoned.advance {worker : ι} {phase : Phase} {rows : Database} {seen : List Sighting}
    (zoned : Zoned environment state) (kept : HostnamesKept state rows)
    (stored : ∀ domain ∈ rows.domains, ∃ zone, domain.zone = some zone ∧
      Encloses domain.hostname zone)
    (own : ∀ run ∈ phase.run?, Asks environment rows run.loaded.domain)
    (encloses : phase.Encloses) : Zoned environment (state.advance worker phase rows seen) := by
  constructor
  case stored => exact stored
  case asks =>
    intro other run running
    simp only [State.advance, Function.update_apply] at running
    split_ifs at running
    · exact own run running
    · exact (zoned.asks other run running).onward traced (traced.runs other run running) kept
  case phases =>
    intro other
    simp only [State.advance, Function.update_apply]
    split_ifs
    · exact encloses
    · exact zoned.phases other

omit consistent in
/-- A worker moves on without committing rows. -/
theorem Zoned.quiet {worker : ι} {phase : Phase} {seen : List Sighting}
    (zoned : Zoned environment state)
    (own : ∀ run ∈ phase.run?, Asks environment state.db run.loaded.domain)
    (encloses : phase.Encloses) :
    Zoned environment (state.advance worker phase state.db seen) :=
  zoned.advance traced (fun row member _ live => .inl ⟨row, member, live, rfl⟩) zoned.stored own
    encloses

omit consistent in
/-- A worker commits one row, with the zone it had. -/
theorem Zoned.commits {worker : ι} {phase : Phase} {domain next : Domain} {rows : Database}
    (zoned : Zoned environment state) (member : domain ∈ state.db.domains)
    (version : claimVersion next = claimVersion domain) (hostname : next.hostname = domain.hostname)
    (zone : next.zone = domain.zone) (holds : Holds state.db next rows) (idle : phase.run? = none)
    (encloses : phase.Encloses) : Zoned environment (state.advance worker phase rows []) := by
  refine zoned.advance traced (.of_holds member version hostname holds) ?_ ?_ encloses
  · intro row stored
    rw [holds.domains] at stored
    obtain ⟨old, present, rfl⟩ := List.mem_map.mp stored
    split
    next =>
      rw [zone, hostname]
      exact zoned.stored domain member
    next => exact zoned.stored old present
  · intro run running
    rw [idle] at running
    cases running

/-- The zone that a worker stores was found for the hostname of the row it stores it in. -/
theorem Zoned.appliesDns {worker : ι} {run : Run} {ownership routing : Outcome}
    {zone : Option String} {domain value : Domain} {edgeDue : Bool} {rows : Database}
    (zoned : Zoned environment state)
    (held : state.workers worker = .queried run ownership routing zone)
    (loads : state.db.Loads run.domainId domain)
    (own : claimVersion domain = claimVersion run.loaded.domain)
    (result : value = (domain.dnsApplied ownership routing state.clock).zoned zone state.clock)
    (holds : Holds state.db (value.edgeLeased run.statusBefore run.edgeDue state.clock) rows)
    (application : Option Application) :
    Zoned environment
      (state.advance worker (.between (run.applied ⟨value, application⟩ edgeDue)) rows []) := by
  have sound := consistent.sound domain loads.1
  have asks := zoned.asks worker run (by rw [held]; rfl)
  have found := zoned.phases worker
  rw [held] at found
  have sameHost : domain.hostname = run.loaded.domain.hostname := asks.hostname domain loads.1 own
  have rescheduled := (domain.dnsApplied ownership routing state.clock).zoned_rescheduled zone
    state.clock
  rw [← result] at rescheduled
  have leased := value.edgeLeased_rescheduled run.statusBefore run.edgeDue state.clock
  have hostname : value.hostname = domain.hostname :=
    rescheduled.hostname.trans (domain.dnsApplied_alike ownership routing state.clock).hostname
  have version : claimVersion value = claimVersion domain := by
    rw [claimVersion_eq, rescheduled.activeClaim, ← claimVersion_eq,
      dnsApplied_claimVersion sound loads.2.2.1]
  have leasedVersion : claimVersion (value.edgeLeased run.statusBefore run.edgeDue state.clock) =
      claimVersion domain := by
    rw [claimVersion_eq, leased.activeClaim, ← claimVersion_eq, version]
  have encloses : ∃ name, value.zone = some name ∧ Encloses domain.hostname name := by
    have zone' := (domain.dnsApplied ownership routing state.clock).zoned_zone state.clock zone
    rw [← result, domain.dnsApplied_zone] at zone'
    rw [zone']
    cases zone with
    | none => exact zoned.stored domain loads.1
    | some name =>
        rw [sameHost]
        exact ⟨name, rfl, found name rfl⟩
  refine zoned.advance traced (.of_holds loads.1 leasedVersion (leased.hostname.trans hostname) holds)
    ?_ ?_ trivial
  · intro row stored
    rw [holds.domains] at stored
    obtain ⟨old, present, rfl⟩ := List.mem_map.mp stored
    split
    next =>
      rw [Domain.edgeLeased_zone, leased.hostname, hostname]
      exact encloses
    next => exact zoned.stored old present
  · rintro _ ⟨⟩
    constructor
    case canonical =>
      show IsCanonical environment false value.hostname
      rw [hostname]
      exact consistent.hostname domain loads.1
    case zone =>
      intro name isZone
      obtain ⟨other, same, encloses⟩ := encloses
      have names : name = other := Option.some.inj (isZone.symm.trans same)
      show Encloses value.hostname name
      rw [names, hostname]
      exact encloses
    case hostname =>
      intro row stored same
      have same : claimVersion row = claimVersion domain := same.trans version
      show row.hostname = value.hostname
      rw [holds.domains] at stored
      obtain ⟨old, present, rfl⟩ := List.mem_map.mp stored
      split at same
      next here =>
        rw [if_pos here]
        exact leased.hostname
      next elsewhere =>
        rw [if_neg elsewhere, hostname, sameHost]
        exact asks.hostname old present (same.trans own)

/-- Every step keeps the invariant. -/
theorem Zoned.step {action : Action ι} (boundary : EndsAtLabel environment.tables)
    (zoned : Zoned environment state) (moves : Moves environment state action after)
    (detected : ZonesDetected environment state action after) : Zoned environment after := by
  have idle : ∀ {worker : ι} {phase : Phase}, phase.run? = none → phase.Encloses →
      Zoned environment (state.advance worker phase state.db []) := by
    intro worker phase none encloses
    refine zoned.quiet traced ?_ encloses
    intro run running
    rw [none] at running
    cases running
  have asks : ∀ {worker : ι} {phase : Phase} {run : Run}, state.workers worker = phase →
      phase.run? = some run → Asks environment state.db run.loaded.domain := by
    rintro worker phase run rfl running
    exact zoned.asks worker run running
  have begins : ∀ {domainId : Uuid} {domain : Domain}, state.db.Loads domainId domain →
      Asks environment state.db domain := by
    intro domainId domain loads
    refine .of_stored consistent traced loads.1 loads.2.2.1 fun zone isZone => ?_
    obtain ⟨name, same, encloses⟩ := zoned.stored domain loads.1
    have names : zone = name := Option.some.inj (isZone.symm.trans same)
    rw [names]
    exact encloses
  cases moves with
  | tick later => exact ⟨zoned.stored, zoned.asks, zoned.phases⟩
  | begin held => exact idle rfl trivial
  | choose held => exact idle rfl trivial
  | lease held member holds =>
      refine zoned.commits traced member ?_ ?_ ?_ holds rfl trivial
      · rfl
      · rfl
      · rfl
  | loadDns held loads due =>
      refine zoned.quiet traced ?_ trivial
      rintro _ ⟨⟩
      exact begins loads
  | loadEdge held loads =>
      refine zoned.quiet traced ?_ trivial
      rintro _ ⟨⟩
      exact begins loads
  | queryOwnership held =>
      have asked := asks held rfl
      refine zoned.quiet traced ?_ trivial
      rintro _ ⟨⟩
      exact asked
  | @queryRouting worker resolver zone run ownership held =>
      have asked := asks held rfl
      refine zoned.quiet traced ?_ ?_
      · rintro _ ⟨⟩
        exact asked
      · intro name isZone
        rcases detected worker resolver zone run ownership rfl held with none | ⟨detection, now, same⟩
        · rw [none] at isZone
          cases isZone
        · rw [same] at isZone
          rcases Detection.refresh_cases isZone with known | ⟨ns, found⟩
          · exact asked.zone name known
          · obtain ⟨raw, accepted⟩ := asked.canonical
            rw [found]
            exact encloses_findZone boundary accepted ns
  | discardDns held loads holds =>
      refine zoned.commits traced loads.1 ?_ ?_ ?_ holds rfl trivial
      · rfl
      · rfl
      · rfl
  | applyDns held loads own result due holds =>
      exact zoned.appliesDns consistent traced held loads own result holds _
  | reload held due =>
      refine zoned.quiet traced ?_ trivial
      rintro _ ⟨⟩
      exact asks held rfl
  | probeCertificate held =>
      have asked := asks held rfl
      refine zoned.quiet traced ?_ trivial
      rintro _ ⟨⟩
      exact asked
  | probeOrigin held =>
      have asked := asks held rfl
      refine zoned.quiet traced ?_ trivial
      rintro _ ⟨⟩
      exact asked
  | @applyEdge worker run certificate origin domain rows held loads own holds =>
      have kept := domain.edgeApplied_kept certificate origin state.clock
      have version : claimVersion (domain.edgeApplied certificate origin state.clock) =
          claimVersion domain := by
        rw [claimVersion_eq, claimVersion_eq, Domain.activeClaim, Domain.activeClaim, kept.claims]
      exact zoned.commits traced loads.1 version kept.hostname kept.zone holds rfl trivial
  | stop worker => exact idle rfl trivial
  | @service op external unused =>
      have kept := HostnamesKept.of_service consistent external unused
      have step := ServiceOp.step consistent op.admits_any
      have later := consistent.step step
      refine ⟨?_, fun worker run running => ?_, zoned.phases⟩
      · intro domain member
        rcases step.located consistent domain member with
          ⟨old, stored, -, hostname, zone⟩ | ⟨-, zone⟩
        · rw [← zone, ← hostname]
          exact zoned.stored old stored
        · obtain ⟨raw, accepted⟩ := later.hostname domain member
          exact ⟨_, zone, encloses_defaultZone boundary accepted⟩
      · exact (zoned.asks worker run running).onward traced (traced.runs worker run running) kept

end Runs

/-! ## Every zone encloses its hostname -/

/-- For each hostname accepted for a customer, the candidates go from its parent up to its
registrable domain, each the one before without its first label, and `find_zone` returns the first
with nameservers unless a lookup before it failed, and always one of them.  In every run of the
service and the workers each stored zone encloses its hostname, so `domain_setup` shows that zone
and a host below its root. -/
theorem zone_encloses_hostname {ι : Type} [DecidableEq ι] (environment : Environment)
    (boundary : EndsAtLabel environment.tables) :
    (∀ raw hostname, canonicalize environment.tables raw false = .ok hostname →
      ∃ top, Zones.registrableDomain environment.tables hostname = some top ∧
        Zones.candidateZones environment.tables hostname ≠ [] ∧
        Zones.Ladder hostname top (Zones.candidateZones environment.tables hostname) ∧
        (∀ zone ∈ Zones.candidateZones environment.tables hostname, ∃ labels, labels ≠ [] ∧
          PythonText.split '.' hostname = labels ++ PythonText.split '.' zone) ∧
        ∀ ns, (findZone environment.tables ns hostname).zone ∈
            Zones.candidateZones environment.tables hostname ∧
          ∀ before zone rest server servers,
            Zones.candidateZones environment.tables hostname = before ++ zone :: rest →
            (∀ name ∈ before, Zones.Unserved ns name) → ns zone = .ok (server :: servers) →
            (findZone environment.tables ns hostname).zone = zone) ∧
      ∀ start state : State ι, Fresh start →
        Reaches environment (ZonesDetected environment) start state →
        ∀ domain ∈ state.db.domains, ∃ zone host, domain.zone = some zone ∧
          Zones.hostInZone domain.hostname zone = .ok host ∧
          host ++ "." ++ zone = domain.hostname ∧ host ≠ "@" ∧
          Zones.setupZone environment.tables domain = .ok (zone, host) := by
  constructor
  · intro raw hostname accepted
    obtain ⟨top, found, -, ladder⟩ := Zones.candidateZones_ladder boundary accepted
    obtain ⟨plain, -⟩ := Zones.canonical_below boundary accepted
    refine ⟨top, ?_, Zones.candidateZones_ne_nil _ _, ladder, fun zone => ladder.labels, fun ns =>
      ⟨Zones.findZone_mem _ ns hostname, ?_⟩⟩
    · rw [Zones.registrableDomain, plain.plainName_eq]
      exact found
    · intro before zone rest server servers candidates unserved served
      rw [Zones.findZone_first candidates unserved served]
  · intro start state fresh reaches domain member
    have empty : start.db.Consistent environment := by
      rw [fresh.db]
      exact Database.consistent_empty environment
    have begins : Zoned environment start := by
      constructor
      case stored => simp [fresh.db]
      case asks =>
        intro worker run running
        rw [fresh.workers] at running
        cases running
      case phases =>
        intro worker
        rw [fresh.workers]
        trivial
    obtain ⟨consistent, -, zoned⟩ := reaches.keeps
      (fun state => Traced state ∧ Zoned environment state) empty ⟨.begins fresh, begins⟩
      fun consistent moves detected held =>
        ⟨held.1.step consistent moves, held.2.step consistent held.1 boundary moves detected⟩
    obtain ⟨zone, stored, encloses⟩ := zoned.stored domain member
    obtain ⟨raw, accepted⟩ := consistent.hostname domain member
    obtain ⟨host, shown⟩ := Zones.setupZone_of_encloses boundary accepted stored encloses
    exact ⟨zone, host, stored, shown⟩

theorem intercalate_pair (separator : Char) (pieces : List (List Char)) (first second : List Char) :
    [separator].intercalate (pieces ++ [first, second]) = first ++ separator :: second ∨
      ∃ front, [separator].intercalate (pieces ++ [first, second]) =
        front ++ separator :: (first ++ separator :: second) := by
  induction pieces with
  | nil => exact .inl (by simp [List.intercalate])
  | cons piece pieces ih =>
      right
      have step : [separator].intercalate (piece :: (pieces ++ [first, second])) =
          piece ++ separator :: [separator].intercalate (pieces ++ [first, second]) := by
        cases pieces <;> simp [List.intercalate]
      rw [List.cons_append, step]
      rcases ih with whole | ⟨front, below⟩
      · exact ⟨piece, by rw [whole]⟩
      · exact ⟨piece ++ separator :: front, by rw [below]; simp⟩

/-- The sample tables cut at a dot. -/
theorem sampleEnvironment_endsAtLabel : EndsAtLabel sampleEnvironment.tables := by
  intro name suffix found
  simp only [sampleEnvironment, PythonText.split] at found
  split at found
  next last label rest pieces =>
    split at found
    next =>
      obtain rfl : label ++ "." ++ last = suffix := Option.some.inj found
      have whole : name.toList = ['.'].intercalate (name.toList.splitOn '.') :=
        (List.intercalate_splitOn '.').symm
      rw [← List.map_reverse] at pieces
      obtain ⟨lastChars, others, cut, rfl, remaining⟩ := List.map_eq_cons_iff.mp pieces
      obtain ⟨labelChars, front, cut', rfl, -⟩ := List.map_eq_cons_iff.mp remaining
      rw [List.reverse_eq_iff.mp (cut.trans (by rw [cut']))] at whole
      rw [List.reverse_cons, List.reverse_cons, List.append_assoc, List.singleton_append] at whole
      rcases intercalate_pair '.' front.reverse labelChars lastChars with alone | ⟨before, below⟩
      · left
        apply String.toList_injective
        rw [whole, alone]
        simp
      · right
        refine ⟨String.ofList before, String.toList_injective ?_⟩
        rw [whole, below]
        simp
    next => cases found
  next => cases found

/-- A worker finds the zone of a domain below a delegated subdomain. -/
def zoningActions : List (Action Unit) :=
  [.service (.createApplication "acme" "Acme" "edge.example.net" 1),
    .service (.claimDomain 1 "forms.eu.example.com" "workspace" ⟨2, 3, "token"⟩ 0),
    .begin () 2, .choose (), .lease (), .load (), .queryOwnership () sampleResolver,
    .queryRouting () sampleResolver (some "eu.example.com"), .applyDns ()]

/-- Nameservers of a subdomain only. -/
def sampleDetection : Detection where
  template := .ok none
  cached _ := .ok none
  resolver := .ok fun name =>
    if name = "eu.example.com" then .ok ["ns1.example.net."] else .error .nameNotFound
  discover _ := .ok ()
  store _ := .ok ()

def sampleDetected (state : State Unit) : Action Unit → Bool
  | .queryRouting _ _ zone =>
      match state.workers () with
      | .owned run _ => decide (zone = sampleDetection.refresh sampleEnvironment.tables
          run.loaded.domain.hostname run.loaded.domain.zone 0)
      | _ => true
  | _ => true

theorem zone_encloses_hostname_delegated :
    ∃ state, Reaches sampleEnvironment (ZonesDetected sampleEnvironment) emptyStart state ∧
      ∃ domain ∈ state.db.domains, domain.zone = some "eu.example.com" ∧
        ∃ zone host, domain.zone = some zone ∧
          Zones.hostInZone domain.hostname zone = .ok host ∧
          host ++ "." ++ zone = domain.hostname ∧ host ≠ "@" ∧
          Zones.setupZone sampleEnvironment.tables domain = .ok (zone, host) := by
  have ran : (GuardedRuns.follow (State.perform sampleEnvironment)
      (fun state action _ => sampleDetected state action = true) emptyStart
      zoningActions).any (fun state => state.db.domains.any fun row =>
        row.zone == some "eu.example.com") = true := by
    decide +kernel
  obtain ⟨state, followed, stored⟩ := Option.any_eq_true _ _ |>.mp ran
  obtain ⟨domain, member, zone⟩ := List.any_eq_true.mp stored
  have reaches : Reaches sampleEnvironment (ZonesDetected sampleEnvironment) emptyStart state := by
    refine (GuardedRuns.Reaches.of_follow .start followed).weaken fun state action after met => ?_
    rintro ⟨⟩ resolver zone run ownership rfl held
    simp only [sampleDetected, held, decide_eq_true_eq] at met
    exact .inr ⟨sampleDetection, 0, met⟩
  exact ⟨state, reaches, domain, member, eq_of_beq zone,
    (zone_encloses_hostname sampleEnvironment sampleEnvironment_endsAtLabel).2 emptyStart state
      ⟨rfl, fun _ => rfl, rfl⟩ reaches domain member⟩

end Checks

end CustomDomain
