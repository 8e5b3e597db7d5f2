import CustomDomain.CaddyTemplate
import CustomDomain.RouteGroups

/-!
# Converging on the desired configuration

`Reconciler._apply` of `app/edge/reconcile.py`: the configuration that Caddy runs is replaced only
when it differs from the one that is built.
-/

namespace CustomDomain

open PythonText PythonJson OriginVerification

/-! ## Applying a configuration -/

/-- `mapping.get(key, {})` of a mapping. -/
def member (key : String) : Json → Json
  | .obj fields => Json.pyGet key fields
  | _ => .null

def items : Json → List Json
  | .arr items => items
  | _ => []

def values : Json → List Json
  | .obj fields => fields.map (·.2)
  | _ => []

/-- `hostnames_in`, of a configuration with these apps. -/
def hostnamesIn (apps : Json) : List String :=
  ((values (member "servers" (member "http" apps))).flatMap fun server =>
    (items (member "routes" server)).flatMap fun route =>
      (items (member "match" route)).flatMap fun match_ =>
        (items (member "host" match_)).filterMap fun host =>
          match host with
          | .str name => some name
          | _ => none).dedup

/-- `app_route_count`. -/
def appRouteCount (apps : Json) : Nat :=
  (items (member "routes" (member serverName (member "servers" (member "http" apps))))).countP
    fun route =>
      match member "@id" route with
      | .str name => startsWith "app-" name
      | _ => false

/-- What the admin API answers a write with. -/
inductive CaddyError where
  | unavailable (message : String)
  | rejectedConfig (message : String)

/-- The writes of the client. -/
inductive ConfigRequest where
  | loadConfig (config : Json)
  | setApps (apps : Json)

structure ReconcileResult where
  changed : Bool
  desiredDigest : String
  hostnames : Nat
  routes : Nat
  error : Option String := none
  detail : Option String := none

/-- What the client gets of the running configuration: an object, or nothing at all. -/
abbrev RunningConfig := Option (List (String × Json))

/-- The write that replaces what Caddy runs: all of it where it was started without a
configuration. -/
def ConfigRequest.replacing (desired : Json) : RunningConfig → ConfigRequest
  | none => .loadConfig (.obj [("apps", desired)])
  | some _ => .setApps desired

/-- `Reconciler._apply`, with the write it makes; `digest` is `config_digest`. -/
def reconcileApply (digest : Json → String) (desired : Json)
    (getConfig : Except String RunningConfig) (write : ConfigRequest → Except CaddyError Unit) :
    ReconcileResult × Option ConfigRequest :=
  let result : ReconcileResult := {
    changed := false
    desiredDigest := digest desired
    hostnames := (hostnamesIn desired).length
    routes := appRouteCount desired }
  match getConfig with
  | .error message => ({ result with error := some "caddy_unavailable", detail := some message }, none)
  | .ok current =>
      if (current.map (Json.pyGet "apps")).any (Json.pyEq · desired) then (result, none)
      else
        let request := ConfigRequest.replacing desired current
        match write request with
        | .error (.rejectedConfig message) =>
            ({ result with error := some "config_rejected", detail := some message }, some request)
        | .error (.unavailable message) =>
            ({ result with error := some "caddy_unavailable", detail := some message },
              some request)
        | .ok () => ({ result with changed := true }, some request)

/-- The configuration Caddy runs once it has accepted a write. -/
def ConfigRequest.applied (current : RunningConfig) : ConfigRequest → RunningConfig
  | .loadConfig (.obj fields) => some fields
  | .loadConfig _ => current
  | .setApps apps => some (assign "apps" apps (current.getD []))

/-- One run of a reconciler: what the resolver and the admin API answer it. -/
structure Round where
  network : Network
  unreachable : Option String := none
  write : ConfigRequest → Except CaddyError Unit

section Rounds

variable (digest : Json → String) (allowPrivate : Bool) (view : Database) (settings : ConfigSettings)

/-- A run: its result, the write it makes, and what Caddy runs then.  The outer `none` is a
configuration that cannot be built. -/
def Round.run (round : Round) (current : RunningConfig) :
    Option (ReconcileResult × Option ConfigRequest × RunningConfig) :=
  (buildApps round.network allowPrivate view settings).map fun desired =>
    let getConfig := match round.unreachable with
      | some message => .error message
      | none => .ok current
    let (result, request) := reconcileApply digest desired getConfig round.write
    let running := match request with
      | none => current
      | some request =>
          match round.write request with
          | .ok () => request.applied current
          | .error _ => current
    (result, request, running)

/-- One run after the other on unchanged rows: the writes they make, and what Caddy runs then. -/
def runRounds : List Round → RunningConfig → Option (List (Option ConfigRequest) × RunningConfig)
  | [], current => some ([], current)
  | round :: rounds, current => do
      let (_, request, current) ← round.run digest allowPrivate view settings current
      let (requests, current) ← runRounds rounds current
      return (request :: requests, current)

end Rounds

/-- Caddy runs the desired apps. -/
def Settled (desired : Json) (current : RunningConfig) : Prop :=
  ∃ fields, current = some fields ∧ Json.pyEq (Json.pyGet "apps" fields) desired = true

section Settling

variable {digest : Json → String} {allowPrivate : Bool} {view : Database}
  {settings : ConfigSettings} {desired : Json} {current : RunningConfig}

/-- A run without an error leaves Caddy with the desired apps. -/
theorem settled_of_run {round : Round} {result : ReconcileResult} {request : Option ConfigRequest}
    {after : RunningConfig} (built : buildApps round.network allowPrivate view settings = some desired)
    (ran : round.run digest allowPrivate view settings current = some (result, request, after))
    (fine : result.error = none) : Settled desired after := by
  have same := Json.pyEq_refl desired (plain_of_buildApps built)
  unfold Round.run at ran
  rw [built, Option.map_some, Option.some.injEq] at ran
  cases reach : round.unreachable with
  | some message =>
      rw [reach] at ran
      simp only [reconcileApply, Prod.mk.injEq] at ran
      rw [← ran.1] at fine
      cases fine
  | none =>
      rw [reach] at ran
      dsimp only [reconcileApply] at ran
      split at ran
      next equal =>
        cases ran
        cases current with
        | none => cases equal
        | some fields => exact ⟨fields, rfl, equal⟩
      next =>
        cases answer : round.write (ConfigRequest.replacing desired current) with
        | error refused =>
            cases refused <;>
              (rw [answer] at ran
               cases ran
               cases fine)
        | ok accepted =>
            rw [answer] at ran
            dsimp only at ran
            rw [answer] at ran
            cases ran
            cases current with
            | none => exact ⟨_, rfl, same⟩
            | some fields =>
                refine ⟨_, rfl, ?_⟩
                rw [Json.pyGet, Option.getD_some, Caddy.lookup_assign]
                exact same

/-- A run on settled rows writes nothing. -/
theorem Settled.run (settled : Settled desired current) (digest : Json → String) {round : Round}
    (built : buildApps round.network allowPrivate view settings = some desired) :
    ∃ result, round.run digest allowPrivate view settings current = some (result, none, current) ∧
      result.changed = false := by
  obtain ⟨fields, rfl, equal⟩ := settled
  unfold Round.run
  rw [built]
  cases reach : round.unreachable with
  | some message => exact ⟨_, rfl, rfl⟩
  | none =>
      have found : ((some fields).map (Json.pyGet "apps")).any (Json.pyEq · desired) = true := equal
      have unchanged : reconcileApply digest desired (.ok (some fields)) round.write =
          (⟨false, digest desired, (hostnamesIn desired).length, appRouteCount desired, none, none⟩,
            none) := if_pos found
      rw [Option.map_some]
      dsimp only
      rw [unchanged]
      exact ⟨_, rfl, rfl⟩

theorem Settled.runRounds {rounds : List Round} (settled : Settled desired current)
    (built : ∀ round ∈ rounds, buildApps round.network allowPrivate view settings = some desired) :
    runRounds digest allowPrivate view settings rounds current =
      some (rounds.map fun _ => none, current) := by
  induction rounds with
  | nil => rfl
  | cons round rounds ih =>
      obtain ⟨result, ran, -⟩ :=
        settled.run digest (built round List.mem_cons_self)
      rw [CustomDomain.runRounds, ran,
        Option.bind_eq_bind, Option.bind_some]
      dsimp only
      rw [ih fun other member => built other (List.mem_cons_of_mem _ member)]
      rfl

/-- Once a run has ended without an error, the later ones write nothing, as long as the rows stay and
the resolvers give every origin the same addresses, in any order and with any repetitions. -/
theorem reconciliation_stable {round : Round} {rounds : List Round} {result : ReconcileResult}
    {request : Option ConfigRequest} {after : RunningConfig}
    (printed : PrintedOrigins round.network view)
    (same : ∀ later ∈ rounds, SameOrigins round.network later.network view)
    (ran : round.run digest allowPrivate view settings current = some (result, request, after))
    (fine : result.error = none) :
    (∀ later ∈ rounds, buildApps later.network allowPrivate view settings =
      buildApps round.network allowPrivate view settings) ∧
    runRounds digest allowPrivate view settings rounds after =
      some (rounds.map fun _ => none, after) := by
  have equal : ∀ later ∈ rounds, buildApps later.network allowPrivate view settings =
      buildApps round.network allowPrivate view settings := fun later member =>
    (buildApps_same settings printed (same later member)).symm
  cases built : buildApps round.network allowPrivate view settings with
  | none =>
      rw [Round.run, built] at ran
      cases ran
  | some desired =>
      rw [built] at equal
      exact ⟨equal, (settled_of_run built ran fine).runRounds equal⟩

end Settling

/-! ## A rotating answer -/

def secondAddress : SocketAddress where
  text := "2606:4700::1111"
  ip := .v6 0x26064700000000000000000000001111
  parses := by decide

/-- A ready domain of an application with an active origin. -/
def routedRows : Database :=
  { activeRows with
    domains := [{
      id := 5
      applicationId := sampleApplication.id
      hostname := "forms.example.com"
      reference := "workspace"
      status := .ready
      createdAt := 0
      updatedAt := 0
      claims := [{
        id := 6
        txtRecordName := "_custom-domain.forms.example.com"
        token := "token"
        cnameTarget := "edge.example.net"
        status := .verified
        createdAt := 0 }] }] }

def answering (addresses : List SocketAddress) : Round where
  network := {
    lookup := fun _ _ => .found addresses
    peer := fun _ => { answer := .timedOut } }
  write := fun _ => .ok ()

theorem reconciliation_stable_rotated :
    ∃ result request after,
      (answering [secondAddress, publicAddress]).run (fun _ => "") false routedRows {} none =
        some (result, request, after) ∧
      runRounds (fun _ => "") false routedRows {}
          [answering [publicAddress, secondAddress, publicAddress], answering [publicAddress, secondAddress]]
          after =
        some ([none, none], after) := by
  have shown : Printed [secondAddress, publicAddress] :=
    ⟨by simp [secondAddress, publicAddress], by simp [secondAddress, publicAddress]⟩
  have printed : PrintedOrigins (answering [secondAddress, publicAddress]).network routedRows :=
    fun _ _ => shown
  obtain ⟨desired, built⟩ := Option.isSome_iff_exists.mp
    (buildApps_isSome false (by decide : ({} : ConfigSettings).validate = .ok ()) printed)
  have ran : (answering [secondAddress, publicAddress]).run (fun _ => "") false routedRows {} none =
      some (⟨true, "", (hostnamesIn desired).length, appRouteCount desired, none, none⟩,
        some (.loadConfig (.obj [("apps", desired)])), some [("apps", desired)]) := by
    rw [Round.run, built]
    rfl
  have same : ∀ later ∈ [answering [publicAddress, secondAddress, publicAddress],
      answering [publicAddress, secondAddress]],
      SameOrigins (answering [secondAddress, publicAddress]).network later.network routedRows := by
    intro later member origin _ address
    rcases List.mem_pair.mp member with rfl | rfl
    · simp [answering, Lookup.addresses, or_comm, or_left_comm]
    · simp [answering, Lookup.addresses, or_comm]
  exact ⟨_, _, _, ran, (reconciliation_stable printed same ran rfl).2⟩

end CustomDomain
