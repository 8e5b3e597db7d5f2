import CustomDomain.PublishedRecords
import CustomDomain.WorkerClaims

/-!
# Records the service issued

`IssuedRecordsResolver` of `app/dns/resolver.py` answers the DNS checks from the stored claims, as
if every customer had published what `dns_records_for` lists.  In every state of the service and its
workers it does so for the claims that are live, and for no other claim.
-/

namespace CustomDomain

open PythonText Zones

/-! ## The resolver -/

/-- The claims that `IssuedRecordsResolver.txt` selects. -/
def Database.issuedAt (db : Database) (name : String) : List OwnershipClaim :=
  (db.domains.filter (·.isLive)).flatMap fun domain =>
    domain.claims.filter fun claim => claim.txtRecordName = name ∧ claim.status ≠ .revoked

/-- `IssuedRecordsResolver`, with the rows that its queries read. -/
def issuedRecords (db : Database) : Resolver where
  txt name :=
    match (db.issuedAt (plainName name)).map (·.txtRecordValue) with
    | [] => .error .nameNotFound
    | values => .ok values
  cname name :=
    match (db.liveByHostname (plainName name)).bind (·.activeClaim) with
    | none => .error .nameNotFound
    | some claim => .ok (some (plainName claim.cnameTarget))
  hasAddress _ := .ok false

theorem Database.mem_issuedAt {db : Database} {name : String} {claim : OwnershipClaim} :
    claim ∈ db.issuedAt name ↔ ∃ domain ∈ db.domains, domain.isLive = true ∧
      claim ∈ domain.claims ∧ claim.txtRecordName = name ∧ claim.status ≠ .revoked := by
  simp [issuedAt, and_assoc]

/-! ## Names of records -/

section Names

variable {tables : NameTables} {raw name : String}

theorem plain_of_canonical {allowApex : Bool} (accepted : canonicalize tables raw allowApex = .ok name) :
    Plain name ∧ name ≠ "" := by
  obtain ⟨text, -⟩ := canonicalize_ok accepted
  obtain ⟨value, encoded, -, same, -, valid, -⟩ := canonicalText_ok text
  refine ⟨⟨?_, getLast?_of_validLabels valid⟩, ?_⟩
  · rw [same, lower, String.toList_ofList]
    intro character member
    obtain ⟨before, -, rfl⟩ := List.mem_map.mp member
    exact toLower_toLower before
  · rintro rfl
    exact absurd (valid "" List.mem_cons_self) (by decide)

theorem challengeName_plain (plain : Plain name) (nonempty : name ≠ "") :
    plainName (challengeLabel ++ "." ++ name) = challengeLabel ++ "." ++ name := by
  have label : ∀ character ∈ challengeLabel.toList, character.toLower = character := by
    simp [challengeLabel]
  have letters : name.toList ≠ [] := fun empty => nonempty (String.toList_eq_nil_iff.mp empty)
  refine Plain.plainName_eq ⟨fun character member => ?_, ?_⟩
  · rw [toList_below] at member
    rcases List.mem_append.mp member with inLabel | rest
    · exact label character inLabel
    · rcases List.mem_cons.mp rest with rfl | inName
      · rfl
      · exact plain.lower character inName
  · rw [toList_below]
    cases shape : name.toList with
    | nil => exact absurd shape letters
    | cons first rest =>
        rw [List.getLast?_append_of_ne_nil _ (List.cons_ne_nil _ _), List.getLast?_cons_cons, ← shape]
        exact plain.last

end Names

/-! ## The names that claims are issued with -/

/-- Every claim asks for its record below the challenge label of the hostname. -/
def Domain.Challenges (domain : Domain) : Prop :=
  ∀ claim ∈ domain.claims, claim.txtRecordName = challengeLabel ++ "." ++ domain.hostname

def Database.Challenges (db : Database) : Prop :=
  ∀ domain ∈ db.domains, domain.Challenges

section Challenges

variable {environment : Environment} {admits : Outcome → Prop} {db after : Database}
  {domain next : Domain}

theorem Domain.Challenges.alike (challenges : domain.Challenges) (alike : domain.Alike next) :
    next.Challenges := by
  intro claim inside
  obtain ⟨old, present, label⟩ := alike.symm.exists_label inside
  simp only [Domain.claimLabel, Prod.mk.injEq] at label
  rw [← label.2.2.1, challenges old present, alike.hostname]

theorem Domain.Challenges.evolves (challenges : domain.Challenges) (sound : domain.Sound)
    (evolves : Evolves admits db domain next) : next.Challenges := by
  cases evolves with
  | dns live admitted now => exact challenges.alike (domain.dnsApplied_alike _ _ now)
  | edge live admitted now => exact challenges.alike (domain.edgeApplied_kept _ _ now).alike
  | reissued live owner unseen now =>
      have reset : (domain.reset now).Challenges := challenges.alike
        ((domain.changeClaim_alike _).trans (Domain.reset_facts sound live now).1.alike)
      rw [Domain.reissued]
      generalize domain.reset now = cleared at *
      intro claim inside
      rw [Domain.addClaim, List.mem_append, List.mem_singleton] at inside
      rcases inside with old | rfl
      · exact reset claim old
      · rfl
  | tombstoned live now => exact challenges.alike (domain.tombstoned_alike now)
  | rescheduled live same => exact challenges.alike same.alike

theorem Database.Challenges.of_holds (challenges : db.Challenges) (row : next.Challenges)
    (holds : Holds db next after) : after.Challenges := by
  intro other present
  rw [holds.domains] at present
  obtain ⟨before, stored, rfl⟩ := List.mem_map.mp present
  split
  next => exact row
  next => exact challenges before stored

theorem Registration.challenges {application : Application} {hostname reference : String}
    {fresh : Fresh} {now : Time}
    (registration : Registration environment application hostname reference fresh now db domain) :
    domain.Challenges := by
  rw [registration.eq]
  intro claim inside
  rw [Domain.registered, List.mem_singleton] at inside
  rw [inside]
  rfl

theorem Change.challenges (consistent : db.Consistent environment) (challenges : db.Challenges)
    (change : Change environment admits db after) : after.Challenges := by
  cases change with
  | quiet same =>
      intro domain member
      rw [same.domains] at member
      exact challenges domain member
  | registered owner registration adopted adds =>
      intro row member
      rw [adds.domains] at member
      rcases List.mem_append.mp member with old | new
      · exact challenges row old
      · rw [List.mem_singleton.mp new]
        split
        next => exact registration.challenges.alike (Domain.adopted_alike _ _)
        next => exact registration.challenges
  | evolved member evolves holds =>
      exact challenges.of_holds ((challenges _ member).evolves (consistent.sound _ member) evolves) holds
  | _ => exact challenges

theorem ServiceStep.challenges (consistent : db.Consistent environment) (challenges : db.Challenges)
    (step : ServiceStep environment admits db after) : after.Challenges := by
  rcases step with changes | ⟨now, rfl⟩
  · have both : after.Consistent environment ∧ after.Challenges := by
      induction changes with
      | refl => exact ⟨consistent, challenges⟩
      | tail _ change ih => exact ⟨ih.1.change change, Change.challenges ih.1 ih.2 change⟩
    exact both.2
  · exact fun domain member => challenges domain (List.mem_of_mem_filter member)

end Challenges

namespace Checks

section Moves

variable {ι : Type} [DecidableEq ι] {environment : Environment} {state after : State ι}

theorem Moves.challenges {action : Action ι} (consistent : state.db.Consistent environment)
    (challenges : state.db.Challenges) (moves : Moves environment state action after) :
    after.db.Challenges := by
  have alike : ∀ {domain next : Domain} {rows : Database}, domain ∈ state.db.domains →
      domain.Alike next → Holds state.db next rows → rows.Challenges :=
    fun member same holds => challenges.of_holds ((challenges _ member).alike same) holds
  cases moves with
  | lease held member holds => exact alike member (Domain.scheduled_rescheduled _ _ _).alike holds
  | discardDns held loads holds =>
      exact alike loads.1 (Domain.scheduled_rescheduled _ _ _).alike holds
  | @applyDns worker run ownership routing zone domain value edgeDue rows held loads own result
      due holds =>
      subst result
      have same := ((domain.dnsApplied ownership routing state.clock).zoned_rescheduled zone
        state.clock).trans (Domain.edgeLeased_rescheduled _ run.statusBefore run.edgeDue state.clock)
      exact alike loads.1 ((domain.dnsApplied_alike ownership routing state.clock).trans same.alike)
        holds
  | @applyEdge worker run certificate origin domain rows held loads own holds =>
      exact alike loads.1 (domain.edgeApplied_kept certificate origin state.clock).alike holds
  | @service op external unused =>
      exact ServiceStep.challenges consistent challenges (ServiceOp.step consistent op.admits_any)
  | _ => exact challenges

end Moves

end Checks

/-! ## What the resolver answers -/

section Answers

variable {environment : Environment} {db : Database} {domain : Domain} {claim : OwnershipClaim}

/-- The tokens have no white space, as those of `secrets.token_urlsafe`. -/
def Database.TokensPrinted (db : Database) : Prop :=
  ∀ token ∈ Checks.tokens db, ∀ character ∈ token.toList, isSpace character = false

theorem Database.TokensPrinted.strip_eq (printed : db.TokensPrinted) (member : domain ∈ db.domains)
    (inside : claim ∈ domain.claims) : strip claim.txtRecordValue = claim.txtRecordValue := by
  have label : "custom-domain-verify=".toList.all (fun character => !isSpace character) = true := by
    decide +kernel
  have shape : claim.txtRecordValue.toList = "custom-domain-verify=".toList ++ claim.token.toList :=
    String.toList_append
  refine strip_of_none fun character present => ?_
  rw [shape] at present
  rcases List.mem_append.mp present with inLabel | inToken
  · simpa using List.all_eq_true.mp label character inLabel
  · exact printed _ (Checks.mem_tokens member inside) character inToken

theorem followCnames_first {resolver : Resolver} {name target : String}
    (answered : resolver.cname name = .ok (some target)) :
    target ∈ followCnames resolver target maxCnameHops [] name ↔ target ≠ name := by
  rw [maxCnameHops, followCnames, answered]
  by_cases itself : target = name
  · simp [itself]
  · simp [itself]

variable (consistent : db.Consistent environment)

include consistent

/-- A live domain is the one that is found by its hostname. -/
theorem liveByHostname_stored (member : domain ∈ db.domains) (live : domain.isLive = true) :
    db.liveByHostname domain.hostname = some domain := by
  cases hit : db.liveByHostname domain.hostname with
  | none =>
      refine absurd (List.find?_eq_none.mp hit domain member) (not_not.mpr ?_)
      rw [live, Bool.true_and, beq_self_eq_true]
  | some other =>
      have stored := List.mem_of_find?_eq_some hit
      have chosen := List.find?_some hit
      simp only [Bool.and_eq_true, beq_iff_eq] at chosen
      exact congrArg some (List.inj_on_of_nodup_map consistent.keyed stored member
        (consistent.single other stored domain member chosen.1 live chosen.2))

theorem issuedRecords_cname (member : domain ∈ db.domains) (live : domain.isLive = true)
    (active : domain.activeClaim = some claim) :
    (issuedRecords db).cname domain.hostname = .ok (some claim.cnameTarget) := by
  obtain ⟨raw, accepted⟩ := consistent.hostname domain member
  obtain ⟨other, target⟩ := consistent.target domain member claim (List.mem_of_find?_eq_some active)
  simp only [issuedRecords, (plain_of_canonical accepted).1.plainName_eq,
    liveByHostname_stored consistent member live, Option.bind_some, active,
    (plain_of_canonical target).1.plainName_eq]

/-- The `CNAME` record of a live domain is found, unless it points at itself. -/
theorem foundBy_cname (member : domain ∈ db.domains) (live : domain.isLive = true)
    (active : domain.activeClaim = some claim) :
    DnsRecord.foundBy ⟨domain.hostname, .cname, claim.cnameTarget, .routing, cnameHelp⟩
      (issuedRecords db) = true ↔ claim.cnameTarget ≠ domain.hostname := by
  have answered := issuedRecords_cname consistent member live active
  rw [← followCnames_first answered]
  simp only [DnsRecord.foundBy, cnameChain, answered, decide_eq_true_eq]

/-- The `TXT` record of a stored claim is found while the claim and its domain are live. -/
theorem foundBy_txt (unique : Checks.UniqueTokens db) (challenges : db.Challenges)
    (printed : db.TokensPrinted) (member : domain ∈ db.domains) (inside : claim ∈ domain.claims) :
    DnsRecord.foundBy ⟨claim.txtRecordName, .txt, claim.txtRecordValue, .ownership, txtHelp⟩
      (issuedRecords db) = true ↔ claim.status ≠ .revoked ∧ domain.isLive = true := by
  obtain ⟨raw, accepted⟩ := consistent.hostname domain member
  obtain ⟨plain, nonempty⟩ := plain_of_canonical accepted
  have name : plainName claim.txtRecordName = claim.txtRecordName := by
    rw [challenges domain member claim inside]
    exact challengeName_plain plain nonempty
  have found : DnsRecord.foundBy ⟨claim.txtRecordName, .txt, claim.txtRecordValue, .ownership, txtHelp⟩
      (issuedRecords db) = true ↔
        ∃ issued ∈ db.issuedAt claim.txtRecordName, strip issued.txtRecordValue = claim.txtRecordValue := by
    simp only [DnsRecord.foundBy, issuedRecords, name]
    cases db.issuedAt claim.txtRecordName with
    | nil => simp
    | cons first rest => simp
  rw [found]
  constructor
  · rintro ⟨issued, selected, same⟩
    obtain ⟨other, stored, live, present, -, open_⟩ := Database.mem_issuedAt.mp selected
    rw [printed.strip_eq stored present] at same
    have token : issued.token = claim.token := (String.append_right_inj _).mp same
    obtain ⟨sameDomain, sameClaim⟩ := unique other stored domain member issued present claim inside token
    obtain rfl : other = domain := List.inj_on_of_nodup_map consistent.keyed stored member sameDomain
    obtain rfl : issued = claim :=
      List.inj_on_of_nodup_map (consistent.sound other member).distinct present inside sameClaim
    exact ⟨open_, live⟩
  · rintro ⟨open_, live⟩
    exact ⟨claim, Database.mem_issuedAt.mpr ⟨domain, member, live, inside, rfl, open_⟩,
      printed.strip_eq member inside⟩

/-- So a stale copy of a domain is owned only while the claim that it was loaded with is live. -/
theorem ownership_of_copy (unique : Checks.UniqueTokens db) (challenges : db.Challenges)
    (printed : db.TokensPrinted) (member : domain ∈ db.domains) (inside : claim ∈ domain.claims)
    {copy : Domain} {seen : OwnershipClaim} (active : copy.activeClaim = some seen)
    (same : Domain.claimLabel seen = Domain.claimLabel claim) :
    (ownershipOutcome (issuedRecords db) copy).passing = true ↔
      claim.status ≠ .revoked ∧ domain.isLive = true := by
  simp only [Domain.claimLabel, Prod.mk.injEq] at same
  have value : seen.txtRecordValue = claim.txtRecordValue := congrArg Checks.challenge same.2.1
  rw [ownershipOutcome_passing_eq active, same.2.2.1, value]
  exact foundBy_txt consistent unique challenges printed member inside

/-- The records of a live domain are all found, unless its target is the hostname itself. -/
theorem publishedTo_issued (unique : Checks.UniqueTokens db) (challenges : db.Challenges)
    (printed : db.TokensPrinted) (member : domain ∈ db.domains) (live : domain.isLive = true)
    (active : domain.activeClaim = some claim) :
    domain.publishedTo (issuedRecords db) = true ↔ claim.cnameTarget ≠ domain.hostname := by
  have owned := (ownership_of_copy consistent unique challenges printed member
    (List.mem_of_find?_eq_some active) active rfl).mpr ⟨activeClaim_not_revoked active, live⟩
  rw [publishedTo_iff active, routingOutcome_passing_eq active,
    foundBy_cname consistent member live active]
  exact and_iff_right owned

end Answers

namespace Checks

section Runs

variable {ι : Type} [DecidableEq ι] {environment : Environment}

/-- In every state of the service and its workers, the resolver of the issued records owns a claim,
for any copy of its domain, exactly while the claim is not revoked and the domain not deleted, and
finds all the records of a live domain, unless its target is the hostname itself. -/
theorem issued_records_answer {start state : State ι} (fresh : Fresh start)
    (reaches : Reaches environment Anyhow start state) (printed : state.db.TokensPrinted)
    {domain : Domain} (member : domain ∈ state.db.domains) :
    (∀ claim ∈ domain.claims, ∀ copy seen, copy.activeClaim = some seen →
      Domain.claimLabel seen = Domain.claimLabel claim →
        ((ownershipOutcome (issuedRecords state.db) copy).passing = true ↔
          claim.status ≠ .revoked ∧ domain.isLive = true)) ∧
      (domain.isLive = true → ∃ claim, domain.activeClaim = some claim ∧
        (domain.publishedTo (issuedRecords state.db) = true ↔
          claim.cnameTarget ≠ domain.hostname)) := by
  have empty : start.db.Consistent environment := by
    rw [fresh.db]
    exact Database.consistent_empty environment
  have unnamed : start.db.Challenges := by
    rw [fresh.db]
    exact fun domain member => absurd member List.not_mem_nil
  obtain ⟨consistent, traced, challenges⟩ := reaches.keeps
    (fun state => Traced state ∧ state.db.Challenges) empty ⟨.begins fresh, unnamed⟩
    fun consistent moves _ held => ⟨held.1.step consistent moves, moves.challenges consistent held.2⟩
  refine ⟨fun claim inside copy seen active same => ?_, fun live => ?_⟩
  · exact ownership_of_copy consistent traced.unique challenges printed member inside active same
  · obtain ⟨claim, -, active⟩ := (consistent.sound domain member).activeClaim live
    exact ⟨claim, active,
      publishedTo_issued consistent traced.unique challenges printed member live active⟩

end Runs

/-- A domain is registered and its claim is issued again. -/
def reissuingActions : List (Action Unit) :=
  [.service (.createApplication "acme" "Acme" "edge.example.net" 1),
    .service (.claimDomain 1 "forms.example.com" "workspace" ⟨2, 3, "token"⟩ 0),
    .service (.reissueClaim 1 2 4 "another" 5)]

theorem issued_records_answer_reissued :
    ∃ state, GuardedRuns.follow (State.perform sampleEnvironment) Anyhow emptyStart
        reissuingActions = some state ∧
      ∃ domain ∈ state.db.domains, domain.publishedTo (issuedRecords state.db) = true ∧
        ∃ claim ∈ domain.claims, ∀ copy seen, copy.activeClaim = some seen →
          Domain.claimLabel seen = Domain.claimLabel claim →
            (ownershipOutcome (issuedRecords state.db) copy).passing = false := by
  have ran : (GuardedRuns.follow (State.perform sampleEnvironment) Anyhow emptyStart
      reissuingActions).any (fun state =>
        (tokens state.db).all (fun token => token.toList.all fun character => !isSpace character) &&
          state.db.domains.any fun domain => domain.isLive &&
            domain.claims.any (fun claim => claim.status == .revoked) &&
              domain.activeClaim.all fun claim => claim.cnameTarget != domain.hostname) = true := by
    decide +kernel
  obtain ⟨state, followed, ran⟩ := (Option.any_eq_true _ _).mp ran
  obtain ⟨printed, ran⟩ := Bool.and_eq_true_iff.mp ran
  obtain ⟨domain, member, ran⟩ := List.any_eq_true.mp ran
  rw [Bool.and_eq_true, Bool.and_eq_true] at ran
  obtain ⟨⟨live, revoked⟩, targets⟩ := ran
  obtain ⟨claim, inside, status⟩ := List.any_eq_true.mp revoked
  have tokensPrinted : state.db.TokensPrinted := by
    intro token issued character inToken
    simpa using List.all_eq_true.mp (List.all_eq_true.mp printed token issued) character inToken
  obtain ⟨owns, publishes⟩ := issued_records_answer ⟨rfl, fun _ => rfl, rfl⟩
    (GuardedRuns.Reaches.of_follow .start followed) tokensPrinted member
  obtain ⟨current, isActive, published⟩ := publishes live
  refine ⟨state, followed, domain, member, published.mpr ?_, claim, inside, ?_⟩
  · rw [isActive, Option.all_some] at targets
    simpa using targets
  · intro copy seen active same
    rw [← Bool.not_eq_true, owns claim inside copy seen active same]
    exact fun held => held.1 (eq_of_beq status)

end Checks

end CustomDomain
