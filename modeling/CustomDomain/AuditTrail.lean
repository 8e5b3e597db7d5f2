import CustomDomain.EventHistory
import CustomDomain.Lifecycle
import Mathlib.Data.List.Chain

/-!
# What the events of a domain tell

The abstract machine behind the audit trail.  A `Snapshot` is what a reader of
the events knows of a domain: its status, its checks and its claims.  `after` is
how one event changes it and `Allows` which events the service records next.
Every history of allowed events is a chain of status changes and a word of the
webhook language; `EventStatements` shows that the service records no others.
-/

namespace CustomDomain

open EventHistory

/-- What a reader of the events knows of a domain. -/
@[ext] structure Snapshot where
  status : DomainStatus
  checks : CheckType → Option CheckStatus
  claims : List (Uuid × ClaimStatus)

/-- What there is to know of a domain. -/
def Domain.snapshot (domain : Domain) : Snapshot where
  status := domain.status
  checks checkType := (domain.check checkType).map (·.status)
  claims := domain.claims.map fun claim => (claim.id, claim.status)

namespace Snapshot

/-- A domain that was just created. -/
def initial : Snapshot where
  status := .pendingDns
  checks _ := some .pending
  claims := []

def setClaim (snapshot : Snapshot) (claimId : Uuid) (status : ClaimStatus) : Snapshot :=
  { snapshot with
    claims := snapshot.claims.map fun claim =>
      if claim.1 = claimId then (claimId, status) else claim }

/-- What one event makes of it. -/
def after (snapshot : Snapshot) : EventPayload → Snapshot
  | .domainCreated _ _ => initial
  | .claimIssued claimId _ =>
      { snapshot with claims := snapshot.claims ++ [(claimId, .pending)] }
  | .claimVerified claimId _ => snapshot.setClaim claimId .verified
  | .claimRevoked claimId _ => snapshot.setClaim claimId .revoked
  | .checkUpdated check _ status _ =>
      { snapshot with checks := Function.update snapshot.checks check (some status) }
  | .statusChanged _ status _ => { snapshot with status := status }
  | .domainDeleted _ _ => { snapshot with status := .deleting }
  | .domainImported _ _ | .recheckRequested _ | .connectUrlIssued _ _ => snapshot

/-- Fold the events of a domain; nothing is known before it is created. -/
def replay (payloads : List EventPayload) : Option Snapshot :=
  payloads.foldl (fun known payload =>
    match known, payload with
    | none, .domainCreated _ _ => some initial
    | none, _ => none
    | some snapshot, payload => some (snapshot.after payload)) none

/-- The events the service records next.  Nothing is recorded of a deleted
domain, a domain needs attention only when it was ready, and it recovers only
from needing attention. -/
def Allows (snapshot : Snapshot) : EventPayload → Prop
  | .domainCreated _ _ => False
  | .statusChanged previous status reason =>
      previous = snapshot.status ∧ status ∈ allowedTransitions previous ∧ status ≠ .deleting ∧
        (status = .attentionRequired → previous = .ready) ∧
        (status = .ready → (reason = some "recovered" ↔ previous = .attentionRequired))
  | .claimIssued claimId _ =>
      snapshot.status ≠ .deleting ∧ claimId ∉ snapshot.claims.map (·.1)
  | .checkUpdated check previous _ _ =>
      snapshot.status ≠ .deleting ∧ previous = snapshot.checks check
  | _ => snapshot.status ≠ .deleting

/-- A history of a domain that exists. -/
abbrev History : Snapshot → List EventPayload → Prop := Allowed after Allows

theorem Allows.open_ {snapshot : Snapshot} {payload : EventPayload}
    (allows : snapshot.Allows payload) : snapshot.status ≠ .deleting := by
  cases payload with
  | domainCreated => exact allows.elim
  | statusChanged previous status reason =>
      intro deleting
      obtain ⟨rfl, allowed, -⟩ := allows
      rw [deleting] at allowed
      cases allowed
  | claimIssued | checkUpdated => exact allows.1
  | domainImported | claimVerified | claimRevoked | domainDeleted | recheckRequested
  | connectUrlIssued => exact allows

theorem replay_created (hostname reference : String) (payloads : List EventPayload) :
    replay (.domainCreated hostname reference :: payloads) =
      some (payloads.foldl after initial) := by
  have known : ∀ (snapshot : Snapshot) (payloads : List EventPayload),
      payloads.foldl (fun known payload =>
        match known, payload with
        | none, .domainCreated _ _ => some initial
        | none, _ => none
        | some snapshot, payload => some (snapshot.after payload)) (some snapshot) =
        some (payloads.foldl after snapshot) := by
    intro snapshot payloads
    induction payloads generalizing snapshot with
    | nil => rfl
    | cons payload payloads ih => exact ih (snapshot.after payload)
  exact known initial payloads

end Snapshot

/-! ## The chain of status changes -/

/-- The status changes among some events. -/
def statusChanges (payloads : List EventPayload) : List (DomainStatus × DomainStatus) :=
  payloads.filterMap fun payload =>
    match payload with
    | .statusChanged previous status _ => some (previous, status)
    | _ => none

/-- Each change starts where the one before it ended, the first one at
`pending_dns`, and all are allowed. -/
structure StatusChain (changes : List (DomainStatus × DomainStatus)) : Prop where
  first : ∀ change ∈ changes.head?, change.1 = .pendingDns
  linked : changes.IsChain fun earlier later => later.1 = earlier.2
  allowed : ∀ change ∈ changes, change.2 ∈ allowedTransitions change.1

/-- Where a chain of status changes ends. -/
def chainEnd (changes : List (DomainStatus × DomainStatus)) : DomainStatus :=
  (changes.getLast?.map (·.2)).getD .pendingDns

theorem StatusChain.nil : StatusChain [] where
  first := by simp
  linked := .nil
  allowed := by simp

theorem StatusChain.concat {changes : List (DomainStatus × DomainStatus)}
    {previous status : DomainStatus} (chain : StatusChain changes)
    (starts : previous = chainEnd changes) (allowed : status ∈ allowedTransitions previous) :
    StatusChain (changes ++ [(previous, status)]) where
  first := by
    cases changes with
    | nil => simpa [chainEnd] using starts
    | cons change changes => simpa using chain.first
  linked := by
    refine chain.linked.append (.singleton _) ?_
    intro earlier last later first
    rw [List.head?_cons, Option.mem_some_iff] at first
    rw [← first, starts, chainEnd, Option.mem_def.mp last]
    rfl
  allowed := by
    intro change member
    rw [List.mem_append, List.mem_singleton] at member
    rcases member with old | rfl
    · exact chain.allowed change old
    · exact allowed

/-- The changes in a history end at the status, unless the domain is deleted. -/
theorem Snapshot.History.chain {payloads : List EventPayload}
    (history : Snapshot.initial.History payloads) : StatusChain (statusChanges payloads) := by
  have chained := history.keeps (fun snapshot past => StatusChain (statusChanges past) ∧
    (snapshot.status ≠ .deleting → chainEnd (statusChanges past) = snapshot.status))
    ⟨.nil, fun _ => rfl⟩ ?_
  · exact chained.1
  · rintro snapshot past payload ⟨chain, ends⟩ allows
    have opened := allows.open_
    rw [statusChanges, List.filterMap_append, ← statusChanges]
    cases payload with
    | statusChanged previous status reason =>
        obtain ⟨rfl, allowed, -⟩ := allows
        refine ⟨chain.concat (ends opened).symm allowed, fun _ => ?_⟩
        simp [chainEnd, after]
    | domainCreated => exact allows.elim
    | domainDeleted => exact ⟨by simpa using chain, by simp [after]⟩
    | domainImported | claimIssued | claimVerified | claimRevoked | checkUpdated
    | recheckRequested | connectUrlIssued =>
        refine ⟨by simpa using chain, fun _ => ?_⟩
        simpa [after, setClaim] using ends opened

/-! ## The webhook language -/

/-- `webhook_event_type`, which reads the payload only. -/
def EventPayload.webhookType : EventPayload → Option WebhookEventType
  | .statusChanged _ .ready (some "recovered") => some .recovered
  | .statusChanged _ .ready _ => some .ready
  | .statusChanged _ .attentionRequired _ => some .attentionRequired
  | .domainDeleted _ _ => some .deleted
  | _ => none

/-- The order in which a consumer sees the webhook events of one domain. -/
structure WebhookLanguage (types : List WebhookEventType) : Prop where
  recovered : ∀ before after, types = before ++ .recovered :: after →
    before.getLast? = some .attentionRequired
  attention : ∀ before after, types = before ++ .attentionRequired :: after →
    before.getLast? = some .ready ∨ before.getLast? = some .recovered
  first : ∀ type ∈ types.head?, type = .ready ∨ type = .deleted
  last : ∀ before after, types = before ++ .deleted :: after → after = []
  once : types.count .deleted ≤ 1

theorem WebhookLanguage.nil : WebhookLanguage [] where
  recovered := by simp
  attention := by simp
  first := by simp
  last := by simp
  once := by simp

theorem WebhookLanguage.concat {types : List WebhookEventType} {type : WebhookEventType}
    (language : WebhookLanguage types) (open_ : .deleted ∉ types)
    (recovered : type = .recovered → types.getLast? = some .attentionRequired)
    (attention : type = .attentionRequired →
      types.getLast? = some .ready ∨ types.getLast? = some .recovered) :
    WebhookLanguage (types ++ [type]) where
  recovered := by
    intro before after same
    rcases split_concat.mp same with ⟨rest, -, inside⟩ | ⟨-, rfl, rfl⟩
    · exact language.recovered before rest inside
    · exact recovered rfl
  attention := by
    intro before after same
    rcases split_concat.mp same with ⟨rest, -, inside⟩ | ⟨-, rfl, rfl⟩
    · exact language.attention before rest inside
    · exact attention rfl
  first := by
    cases types with
    | cons first types => simpa using language.first
    | nil =>
        cases type with
        | ready | deleted => simp
        | recovered => simpa using recovered rfl
        | attentionRequired => simpa using attention rfl
  last := by
    intro before after same
    rcases split_concat.mp same with ⟨rest, -, inside⟩ | ⟨ends, -, -⟩
    · exact absurd (by simp [inside]) open_
    · exact ends
  once := by
    rw [List.count_append, List.count_eq_zero.mpr open_, zero_add]
    exact List.count_le_length

/-- What the last webhook event says of a domain that is not deleted. -/
structure Snapshot.Announced (snapshot : Snapshot) (types : List WebhookEventType) : Prop where
  ready : snapshot.status = .ready →
    types.getLast? = some .ready ∨ types.getLast? = some .recovered
  attention : snapshot.status = .attentionRequired → types.getLast? = some .attentionRequired
  open_ : snapshot.status ≠ .deleting → .deleted ∉ types

/-- A recovery is announced as such, and no other way into `ready` is. -/
theorem webhookType_ready (previous : DomainStatus) (reason : Option String) :
    (EventPayload.statusChanged previous .ready reason).webhookType =
      some (if reason = some "recovered" then .recovered else .ready) := by
  unfold EventPayload.webhookType
  split <;> simp_all

theorem webhookType_other {previous status : DomainStatus} (reason : Option String)
    (notReady : status ≠ .ready) (calm : status ≠ .attentionRequired) :
    (EventPayload.statusChanged previous status reason).webhookType = none := by
  unfold EventPayload.webhookType
  split <;> simp_all

/-- A status change and what it announces. -/
theorem Snapshot.Announced.moved {snapshot : Snapshot} {types : List WebhookEventType}
    {previous status : DomainStatus} {reason : Option String} (language : WebhookLanguage types)
    (announced : snapshot.Announced types)
    (allows : snapshot.Allows (.statusChanged previous status reason)) :
    WebhookLanguage (types ++ (EventPayload.statusChanged previous status reason).webhookType.toList) ∧
      (snapshot.after (.statusChanged previous status reason)).Announced
        (types ++ (EventPayload.statusChanged previous status reason).webhookType.toList) := by
  have opened := announced.open_ allows.open_
  obtain ⟨rfl, allowed, -, needs, recovers⟩ := allows
  by_cases ready : status = .ready
  · subst ready
    rw [webhookType_ready, Option.toList_some]
    by_cases recovered : reason = some "recovered"
    · rw [if_pos recovered]
      have attention := announced.attention ((recovers rfl).mp recovered)
      refine ⟨language.concat opened (fun _ => attention) nofun, ?_, nofun, ?_⟩
      · simp
      · exact fun _ => by simpa using opened
    · rw [if_neg recovered]
      refine ⟨language.concat opened nofun nofun, ?_, nofun, ?_⟩
      · simp
      · exact fun _ => by simpa using opened
  · by_cases attention : status = .attentionRequired
    · subst attention
      have wasReady := announced.ready (needs rfl)
      refine ⟨language.concat opened nofun fun _ => wasReady, nofun, ?_, ?_⟩
      · simp [EventPayload.webhookType]
      · exact fun _ => by simpa [EventPayload.webhookType] using opened
    · rw [webhookType_other reason ready attention, Option.toList_none, List.append_nil]
      exact ⟨language, fun here => absurd here ready, fun here => absurd here attention,
        fun _ => opened⟩

/-- Every history is a word of the webhook language. -/
theorem Snapshot.History.webhooks {payloads : List EventPayload}
    (history : Snapshot.initial.History payloads) :
    WebhookLanguage (payloads.filterMap (·.webhookType)) := by
  have announced := history.keeps (fun snapshot past =>
    WebhookLanguage (past.filterMap (·.webhookType)) ∧
      snapshot.Announced (past.filterMap (·.webhookType)))
    ⟨.nil, by simp [initial], by simp [initial], by simp⟩ ?_
  · exact announced.1
  · rintro snapshot past payload ⟨language, announced⟩ allows
    have opened := announced.open_ allows.open_
    have added : (past ++ [payload]).filterMap (·.webhookType) =
        past.filterMap (·.webhookType) ++ payload.webhookType.toList := by
      rw [List.filterMap_append]
      cases found : payload.webhookType <;> simp [found]
    rw [added]
    generalize past.filterMap (·.webhookType) = types at *
    cases payload with
    | domainCreated => exact allows.elim
    | statusChanged previous status reason => exact announced.moved language allows
    | domainDeleted =>
        refine ⟨language.concat opened nofun nofun, nofun, nofun, ?_⟩
        simp [after]
    | domainImported | claimIssued | claimVerified | claimRevoked | checkUpdated
    | recheckRequested | connectUrlIssued =>
        rw [EventPayload.webhookType, Option.toList_none, List.append_nil]
        · exact ⟨language, announced.ready, announced.attention, announced.open_⟩
        all_goals nofun

end CustomDomain
