import CustomDomain.ServiceRuns

/-!
# What a canonical name is

The names that `canonicalize` of `app/hostname.py` returns: their shape, that they are returned
unchanged, and what the lookup of `find_live_by_hostname` and the host test of
`app/edge/gateway.py` make of them.
-/

namespace CustomDomain

open PythonText PythonIp Transaction

/-- What `canonicalize` relies on of `idna.encode(name, uts46=True)`: a name it produced is
returned as it is, without capitals or line breaks in it. -/
structure NameTables.Stable (tables : NameTables) : Prop where
  fixed : ∀ {name encoded}, tables.idnaEncode name = .ok encoded →
    tables.idnaEncode encoded = .ok encoded
  lowercase : ∀ {name encoded}, tables.idnaEncode name = .ok encoded → lower encoded = encoded
  line : ∀ {name encoded}, tables.idnaEncode name = .ok encoded → '\n' ∉ encoded.toList

theorem NameTables.Lawful.stable {tables : NameTables} (lawful : tables.Lawful) : tables.Stable where
  fixed := lawful.encoded_fixed
  lowercase := fun encode => lower_of_none fun character member =>
    (hostCharacter_facts (lawful.encoded_characters encode character member)).2.1
  line := fun encode member => by
    have code := hostCharacter_code (lawful.encoded_characters encode '\n' member)
    revert code
    decide

/-- The loop over the hosts in `_validate_app_route`, for hosts that are texts: the names seen
after it, or the host it refuses and the code of the refusal. -/
def validateHosts (tables : NameTables) (seen : List String) :
    List String → Except (String × Option String) (List String)
  | [] => .ok seen
  | host :: rest =>
      match canonicalize tables host false with
      | .error refused => .error (host, some refused.code)
      | .ok canonical =>
          if canonical ≠ host ∨ canonical ∈ seen then .error (host, none)
          else validateHosts tables (seen ++ [canonical]) rest

/-! ## Labels -/

/-- Lower-case letters, digits and inner hyphens. -/
structure LabelShape (label : String) : Prop where
  length : 1 ≤ label.length ∧ label.length ≤ 63
  characters : ∀ character ∈ label.toList,
    ('a' ≤ character ∧ character ≤ 'z') ∨ ('0' ≤ character ∧ character ≤ '9') ∨ character = '-'
  inner : label.toList.head? ≠ some '-' ∧ label.toList.getLast? ≠ some '-'

theorem labelShape_of_matches {label : List Char} (matched : matchesLabel label = true)
    (line : '\n' ∉ label) : labelShape label = true := by
  rw [matchesLabel, Bool.or_eq_true, Bool.and_eq_true, beq_iff_eq] at matched
  rcases matched with shape | ⟨final, -⟩
  · exact shape
  · exact absurd (List.mem_of_getLast? final) line

theorem labelCharacters {label : List Char} (shape : labelShape label = true) :
    ∀ character ∈ label, isLabelCharacter character = true := by
  cases label with
  | nil => cases shape
  | cons first rest =>
      simp only [labelShape, Bool.and_eq_true, List.all_eq_true] at shape
      intro character member
      rcases List.mem_cons.mp member with rfl | later
      · rw [isLabelCharacter, shape.1.1, Bool.true_or]
      · exact shape.1.2 character later

theorem labelShape_ends {label : List Char} (shape : labelShape label = true) :
    label.head? ≠ some '-' ∧ label.getLast? ≠ some '-' := by
  cases label with
  | nil => cases shape
  | cons first rest =>
      simp only [labelShape, Bool.and_eq_true] at shape
      constructor
      · rintro same
        rw [Option.some.inj same] at shape
        exact absurd shape.1.1 (by decide)
      · intro same
        rw [List.getLast?_eq_some_getLast (List.cons_ne_nil first rest)] at same
        rw [Option.some.inj same] at shape
        exact absurd shape.2 (by decide)

theorem labelShape_valid {label : String} (valid : validLabel label = true)
    (line : '\n' ∉ label.toList) : LabelShape label := by
  simp only [validLabel, Bool.and_eq_true, decide_eq_true_eq] at valid
  obtain ⟨⟨nonempty, short⟩, matched⟩ := valid
  have shape := labelShape_of_matches matched line
  constructor
  case length =>
    refine ⟨?_, short⟩
    rw [← String.length_toList]
    cases letters : label.toList with
    | nil => simp [letters] at nonempty
    | cons => simp
  case characters =>
    intro character member
    have allowed := labelCharacters shape character member
    simp only [isLabelCharacter, isLabelEnd, Char.isDigit, Bool.or_eq_true, Bool.and_eq_true,
      decide_eq_true_eq, beq_iff_eq, or_assoc] at allowed
    exact allowed
  case inner => exact labelShape_ends shape

/-! ## Names -/

section Names

variable {tables : NameTables} {raw name : String}

/-- An accepted name is the encoder's output, in labels of letters, digits and hyphens. -/
theorem canonicalText_stable (stable : tables.Stable)
    (accepted : canonicalText tables raw = .ok name) :
    tables.idnaEncode name = .ok name ∧ '\n' ∉ name.toList ∧
      ∀ character ∈ name.toList, isLabelCharacter character = true ∨ character = '.' := by
  obtain ⟨value, encoded, encode, rfl, -, valid, -⟩ := canonicalText_ok accepted
  rw [stable.lowercase encode] at valid ⊢
  have line := stable.line encode
  refine ⟨stable.fixed encode, line, fun character member => ?_⟩
  have joined : ['.'].intercalate (encoded.toList.splitOn '.') = encoded.toList :=
    List.intercalate_splitOn '.'
  rw [← joined] at member
  rcases mem_of_mem_intercalate member with dot | ⟨piece, inside, among⟩
  · exact .inr (List.mem_singleton.mp dot)
  · have label : String.ofList piece ∈ split '.' encoded := List.mem_map_of_mem inside
    have matched := valid _ label
    simp only [validLabel, Bool.and_eq_true, String.toList_ofList] at matched
    have noLine : '\n' ∉ piece := fun present =>
      line (mem_of_mem_split label (by rwa [String.toList_ofList]))
    exact .inl (labelCharacters (labelShape_of_matches matched.2 noLine) character among)

theorem canonicalText_stable_fixed (stable : tables.Stable)
    (accepted : canonicalText tables raw = .ok name) : canonicalText tables name = .ok name := by
  obtain ⟨encode, -, allowed⟩ := canonicalText_stable stable accepted
  obtain ⟨-, -, -, -, short, valid, notNumeric⟩ := canonicalText_ok accepted
  exact canonicalText_of_labels encode allowed short valid notNumeric

theorem canonicalize_stable (stable : tables.Stable) {allowApex : Bool}
    (accepted : canonicalize tables raw allowApex = .ok name) :
    canonicalize tables name allowApex = .ok name := by
  obtain ⟨text, customer⟩ := canonicalize_ok accepted
  simp only [canonicalize, canonicalText_stable_fixed stable text]
  cases allowApex with
  | true => rfl
  | false => exact customer rfl

/-- The shape of a canonical name. -/
structure NameShape (name : String) : Prop where
  length : name.length ≤ 253
  labels : ∀ label ∈ split '.' name, LabelShape label
  dot : name.toList.getLast? ≠ some '.'
  wildcard : '*' ∉ name.toList
  last : ∀ label, (split '.' name).getLast? = some label → isDigit label = false
  address : ipAddress name = none ∧ looksLikeIp name = false

theorem canonicalize_shape (stable : tables.Stable) {allowApex : Bool}
    (accepted : canonicalize tables raw allowApex = .ok name) : NameShape name := by
  obtain ⟨text, -⟩ := canonicalize_ok accepted
  obtain ⟨-, line, allowed⟩ := canonicalText_stable stable text
  obtain ⟨-, -, -, -, short, valid, notNumeric⟩ := canonicalText_ok text
  have notIp := looksLikeIp_of_labels allowed notNumeric
  constructor
  case length => exact short
  case labels =>
    exact fun label member => labelShape_valid (valid label member) fun inside =>
      line (mem_of_mem_split member inside)
  case dot => exact getLast?_of_validLabels valid
  case wildcard => exact fun star => (hostCharacter_facts (allowed '*' star)).2.2.1 rfl
  case last =>
    intro label isLast
    rw [isLast, Option.map_some] at notNumeric
    exact Bool.eq_false_iff.mpr fun digits => notNumeric (congrArg some digits)
  case address =>
    have unbracketed : stripOf ['[', ']'] name = name :=
      stripOf_of_none fun character member => by
        have facts := hostCharacter_facts (allowed character member)
        simp [facts.2.2.2.1, facts.2.2.2.2.1]
    refine ⟨?_, notIp⟩
    rw [looksLikeIp, unbracketed] at notIp
    exact Option.isSome_eq_false_iff.mp notIp |> Option.isNone_iff_eq_none.mp

/-- Hosts that `canonicalize` returned pass the gateway's test, each once. -/
theorem validateHosts_canonical (stable : tables.Stable) {hosts seen : List String}
    (canonical : ∀ host ∈ hosts, ∃ raw, canonicalize tables raw false = .ok host)
    (distinct : hosts.Nodup) (unseen : ∀ host ∈ hosts, host ∉ seen) :
    validateHosts tables seen hosts = .ok (seen ++ hosts) := by
  induction hosts generalizing seen with
  | nil => rw [validateHosts, List.append_nil]
  | cons host rest ih =>
      obtain ⟨absent, distinct⟩ := List.nodup_cons.mp distinct
      obtain ⟨raw, accepted⟩ := canonical host (List.mem_cons_self ..)
      rw [validateHosts, canonicalize_stable stable accepted]
      have passes : ¬(host ≠ host ∨ host ∈ seen) := by
        rintro (differs | known)
        · exact differs rfl
        · exact unseen host (List.mem_cons_self ..) known
      simp only [if_neg passes]
      rw [ih (fun other member => canonical other (List.mem_cons_of_mem _ member)) distinct ?_,
        List.append_assoc, List.singleton_append]
      intro other member known
      rcases List.mem_append.mp known with old | new
      · exact unseen other (List.mem_cons_of_mem _ member) old
      · exact absent (List.mem_singleton.mp new ▸ member)

end Names

/-! ## Stored hostnames -/

/-- Every spelling of a live hostname finds its row. -/
theorem findLiveByHostname_finds {environment : Environment} {db : Database}
    (consistent : db.Consistent environment) {domain : Domain} (stored : domain ∈ db.domains)
    (live : domain.isLive = true) {raw : String}
    (spelling : canonicalize environment.tables raw false = .ok domain.hostname) :
    (findLiveByHostname environment raw).run db =
      (.ok (some ⟨domain, db.application? domain.applicationId⟩), db) := by
  have found : db.liveByHostname domain.hostname = some domain := by
    cases hit : db.liveByHostname domain.hostname with
    | none =>
        refine absurd (List.find?_eq_none.mp hit domain stored) (not_not.mpr ?_)
        rw [live, Bool.true_and, beq_self_eq_true]
    | some other =>
        have member := List.mem_of_find?_eq_some hit
        have chosen := List.find?_some hit
        simp only [Bool.and_eq_true, beq_iff_eq] at chosen
        have same := consistent.single other member domain stored chosen.1 live chosen.2
        rw [List.inj_on_of_nodup_map consistent.keyed member stored same]
  rw [findLiveByHostname, spelling]
  refine (selectDomain_run fun other hit => consistent.keyed.domain?_eq
    (List.mem_of_find?_eq_some hit)).trans ?_
  rw [found]
  rfl

/-- Canonical names are a fixed point of `canonicalize`, of the shape that is stored, looked up
and routed. -/
theorem canonical_names_fixed {environment : Environment} (stable : environment.tables.Stable) :
    (∀ raw name allowApex, canonicalize environment.tables raw allowApex = .ok name →
      canonicalize environment.tables name allowApex = .ok name ∧
      canonicalize environment.tables raw true = .ok name ∧
      NameShape name) ∧
    ∀ db, Reachable environment db → ∀ domain ∈ db.domains,
      (∀ seen, domain.hostname ∉ seen →
        validateHosts environment.tables seen [domain.hostname] = .ok (seen ++ [domain.hostname])) ∧
      (domain.isLive = true →
        ∀ raw, canonicalize environment.tables raw false = .ok domain.hostname →
          (findLiveByHostname environment raw).run db =
            (.ok (some ⟨domain, db.application? domain.applicationId⟩), db)) := by
  refine ⟨fun raw name allowApex accepted => ?_, fun db reachable domain stored => ?_⟩
  · exact ⟨canonicalize_stable stable accepted, canonicalize_allowApex accepted,
      canonicalize_shape stable accepted⟩
  · have consistent := reachable.consistent
    refine ⟨fun seen unseen => ?_, fun live raw => findLiveByHostname_finds consistent stored live⟩
    refine validateHosts_canonical stable (fun host member => ?_) (List.nodup_singleton _)
      fun host member => ?_
    · rw [List.mem_singleton.mp member]
      exact consistent.hostname domain stored
    · rw [List.mem_singleton.mp member]
      exact unseen

/-- A registered hostname. -/
def claimedRun : List ServiceOp :=
  [.createApplication "acme" "Acme" "edge.example.net" 1,
    .claimDomain 1 "forms.example.com" "workspace" ⟨2, 3, "token"⟩ 0]

/-- A spelling with blanks around it and a trailing dot, and the domain that it finds. -/
theorem canonical_names_fixed_sample :
    canonicalize sampleEnvironment.tables "forms.example.com" false = .ok "forms.example.com" ∧
      canonicalize sampleEnvironment.tables " forms.example.com. " true = .ok "forms.example.com" ∧
      NameShape "forms.example.com" ∧
      ∃ domain ∈ (runAll sampleEnvironment claimedRun {}).domains, domain.hostname = "forms.example.com" ∧
        validateHosts sampleEnvironment.tables ["www.example.com"] [domain.hostname] =
          .ok ["www.example.com", domain.hostname] ∧
        (findLiveByHostname sampleEnvironment " forms.example.com. ").run
            (runAll sampleEnvironment claimedRun {}) =
          (.ok (some ⟨domain, (runAll sampleEnvironment claimedRun {}).application?
            domain.applicationId⟩), runAll sampleEnvironment claimedRun {}) := by
  have accepted : canonicalize sampleEnvironment.tables " forms.example.com. " false =
      .ok "forms.example.com" := by
    decide +kernel
  have stable : sampleEnvironment.tables.Stable := sampleEnvironment_lawful.stable
  have claimed : ∃ domain ∈ (runAll sampleEnvironment claimedRun {}).domains,
      domain.hostname = "forms.example.com" ∧ domain.isLive = true := by
    decide +kernel
  obtain ⟨names, rows⟩ := canonical_names_fixed stable
  obtain ⟨fixed, either, shape⟩ := names _ _ _ accepted
  obtain ⟨domain, stored, named, live⟩ := claimed
  obtain ⟨passes, finds⟩ := rows _ ⟨claimedRun, rfl⟩ domain stored
  refine ⟨fixed, either, shape, domain, stored, named, passes _ ?_, finds live _ ?_⟩
  · rw [named]
    decide
  · rw [named]
    exact accepted

end CustomDomain
