import CustomDomain.DnsChecks
import CustomDomain.SuccessorWalks

/-!
# What the routing check decides

`routing_outcome` passes exactly when the CNAMEs lead from the hostname to the target of the live
claim, and its error code says how the first lookup went.
-/

namespace CustomDomain

open SuccessorWalk

namespace Resolver

variable (resolver : Resolver)

/-- The CNAME target of a name, when the lookup finds one. -/
def target (name : String) : Option String :=
  match resolver.cname name with
  | .ok answer => answer
  | .error _ => none

variable {resolver}

theorem target_of_ok {name : String} {answer : Option String}
    (found : resolver.cname name = .ok answer) : resolver.target name = answer := by
  rw [target, found]

theorem target_of_error {name : String} {error : DnsError}
    (failed : resolver.cname name = .error error) : resolver.target name = none := by
  rw [target, failed]

variable (resolver)

theorem followCnames_eq_walk (stopAt : String) (hops : Nat) (chain : List String)
    (current : String) :
    followCnames resolver stopAt hops chain current =
      walk resolver.target stopAt hops chain current := by
  induction hops generalizing chain current with
  | zero => rfl
  | succ hops ih =>
      rw [followCnames, walk]
      cases answer : resolver.cname current with
      | error error => rw [target_of_error answer]
      | ok found =>
          rw [target_of_ok answer]
          cases found with
          | none => rfl
          | some target =>
              simp only [ih]

/-- The first lookup was not answered. -/
def Unavailable (name : String) : Prop :=
  ∃ text, resolver.cname name = .error (.unavailable text)

/-- The first lookup found no name, no CNAME, or a CNAME to the name itself. -/
def Unrouted (name : String) : Prop :=
  resolver.cname name = .error .nameNotFound ∨ resolver.cname name = .ok none ∨
    resolver.cname name = .ok (some name)

end Resolver

/-- A verdict of the routing check: a pass, or a failure with its error code. -/
structure RoutingVerdict (resolver : Resolver) (hostname target : String) (outcome : Outcome) :
    Prop where
  passing : outcome.status = .passing ↔
    ∃ steps ≤ maxCnameHops, follow resolver.target steps hostname = some target
  failing : outcome.status ≠ .passing → outcome.status = .failing
  timeout : outcome.status ≠ .passing →
    (outcome.errorCode = some "dns_timeout" ↔ resolver.Unavailable hostname)
  notFound : outcome.status ≠ .passing →
    (outcome.errorCode = some "cname_not_found" ↔ resolver.Unrouted hostname)
  mismatch : outcome.status ≠ .passing →
    (outcome.errorCode = some "cname_target_mismatch" ↔
      ¬resolver.Unavailable hostname ∧ ¬resolver.Unrouted hostname)

section Chain

variable {resolver : Resolver} {hostname target : String}

theorem mem_cnameChain_iff {chain : List String}
    (answered : cnameChain resolver hostname target = .ok chain) (differs : hostname ≠ target) :
    target ∈ chain ↔
      ∃ steps ≤ maxCnameHops, follow resolver.target steps hostname = some target := by
  rw [cnameChain] at answered
  split at answered
  next => cases answered
  next =>
    cases answered
    rw [Resolver.followCnames_eq_walk]
    exact mem_walk_iff maxCnameHops (fun _ none => absurd none List.not_mem_nil)
      List.not_mem_nil differs

theorem cnameChain_nil_iff {chain : List String}
    (answered : cnameChain resolver hostname target = .ok chain) :
    chain = [] ↔ resolver.Unrouted hostname := by
  rw [cnameChain] at answered
  split at answered
  next => cases answered
  next answer found =>
    cases answered
    rw [Resolver.followCnames_eq_walk, show maxCnameHops = 7 + 1 from rfl, walk_eq_nil_iff,
      Resolver.target_of_ok found, Resolver.Unrouted, found]
    simp

theorem cnameChain_available {chain : List String}
    (answered : cnameChain resolver hostname target = .ok chain) :
    ¬resolver.Unavailable hostname := by
  rintro ⟨text, failed⟩
  rw [cnameChain, failed] at answered
  cases answered

theorem cnameChain_error {error : DnsError}
    (failed : cnameChain resolver hostname target = .error error) :
    resolver.cname hostname = .error error := by
  rw [cnameChain] at failed
  split at failed
  next reported =>
    cases failed
    exact reported
  next => cases failed

/-- A name whose first lookup fails leads nowhere else. -/
theorem not_followed (differs : hostname ≠ target) {error : DnsError}
    (failed : resolver.cname hostname = .error error) :
    ¬∃ steps ≤ maxCnameHops, follow resolver.target steps hostname = some target := by
  rintro ⟨steps, -, reached⟩
  cases steps with
  | zero => exact differs (Option.some.inj reached)
  | succ steps =>
      rw [follow_of_stop (Resolver.target_of_error failed)] at reached
      cases reached

end Chain

theorem routing_passes_iff (resolver : Resolver) {domain : Domain} {claim : OwnershipClaim}
    (active : domain.activeClaim = some claim) (differs : domain.hostname ≠ claim.cnameTarget) :
    RoutingVerdict resolver domain.hostname claim.cnameTarget (routingOutcome resolver domain) := by
  simp only [routingOutcome, active]
  split
  next failed =>
    have reported := cnameChain_error failed
    have nowhere := not_followed differs reported
    constructor <;> simp [nowhere, Resolver.Unavailable, Resolver.Unrouted, reported]
  next text failed =>
    have reported := cnameChain_error failed
    have nowhere := not_followed differs reported
    constructor <;> simp [nowhere, Resolver.Unavailable, Resolver.Unrouted, reported]
  next answered =>
    have unrouted := (cnameChain_nil_iff answered).mp rfl
    have nowhere := (mem_cnameChain_iff answered differs).not.mp List.not_mem_nil
    have available := cnameChain_available answered
    split <;> constructor <;> simp [nowhere, available, unrouted]
  next first rest answered =>
    have routed := (cnameChain_nil_iff answered).not.mp (List.cons_ne_nil first rest)
    have available := cnameChain_available answered
    have met := mem_cnameChain_iff answered differs
    split
    next inside =>
      constructor <;> simp [met.mp inside]
    next outside =>
      constructor <;> simp [met.not.mp outside, available, routed]

/-- Two CNAMEs lead to the target; a third leads back into a loop. -/
def loopingResolver : Resolver where
  txt := fun _ => .error .nameNotFound
  cname := fun name =>
    if name = "forms.example.com" then .ok (some "alias.example.com")
    else if name = "alias.example.com" then .ok (some "edge.example.net")
    else .ok (some "forms.example.com")
  hasAddress := fun _ => .error .nameNotFound

def routedClaim : OwnershipClaim where
  id := 3
  txtRecordName := "_custom-domain-challenge.forms.example.com"
  token := "token"
  cnameTarget := "edge.example.net"
  createdAt := 0

def routedDomain : Domain where
  id := 2
  applicationId := 1
  hostname := "forms.example.com"
  reference := "workspace"
  createdAt := 0
  updatedAt := 0
  claims := [routedClaim]

theorem routing_passes_iff_routedDomain :
    RoutingVerdict loopingResolver "forms.example.com" "edge.example.net"
        (routingOutcome loopingResolver routedDomain) ∧
      (routingOutcome loopingResolver routedDomain).status = .passing :=
  have verdict := routing_passes_iff loopingResolver 
    (show routedDomain.activeClaim = some routedClaim by decide) (by decide)
  ⟨verdict, verdict.passing.mpr ⟨2, by decide, by decide⟩⟩

end CustomDomain
