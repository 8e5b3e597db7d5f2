import CustomDomain.RegistrationStatements

/-!
# Names of the ownership challenge

The customer publishes the token of a claim under the challenge label in front of the
hostname, so the name is longer than the hostname that was accepted.
-/

namespace CustomDomain

open Transaction PythonText

/-- A name that can be published and queried: a DNS name has the size of its column. -/
structure IsRecordName (name : String) : Prop where
  short : name.length ≤ maxRecordNameLength
  labels : ∀ label ∈ split '.' name, label ≠ "" ∧ label.length ≤ maxLabelLength ∧
    ∀ character ∈ label.toList, isLabelCharacter character = true ∨ character = '_'

/-- The longest hostname whose challenge has a name. -/
def maxChallengedLength : Nat := 228

section Names

variable {tables : NameTables} {hostname canonical : String}

/-- The labels of an accepted hostname. -/
theorem canonical_labels (lawful : tables.Lawful)
    (accepted : canonicalize tables hostname false = .ok canonical) :
    ∀ label ∈ split '.' canonical, label ≠ "" ∧ label.length ≤ maxLabelLength ∧
      ∀ character ∈ label.toList, isLabelCharacter character = true ∨ character = '_' := by
  obtain ⟨text, -⟩ := canonicalize_ok accepted
  obtain ⟨-, -, -, -, -, valid, -⟩ := canonicalText_ok text
  obtain ⟨-, allowed⟩ := canonicalText_encoded lawful text
  intro label member
  have shape := valid label member
  simp only [validLabel, Bool.and_eq_true, Bool.not_eq_true', List.isEmpty_eq_false_iff,
    decide_eq_true_eq] at shape
  refine ⟨?_, shape.1.2, fun character inside => ?_⟩
  · rintro rfl
    exact shape.1.1 rfl
  · rcases allowed character (mem_of_mem_split member inside) with letter | rfl
    · exact .inl letter
    · -- A label has no dot of its own.
      obtain ⟨characters, piece, rfl⟩ := List.mem_map.mp member
      rw [String.toList_ofList] at inside
      exact absurd inside (not_mem_of_mem_splitOn piece)

/-- The challenge of an accepted hostname has a name exactly if the label still fits. -/
theorem isRecordName_iff (lawful : tables.Lawful)
    (accepted : canonicalize tables hostname false = .ok canonical) :
    IsRecordName (challengeLabel ++ "." ++ canonical) ↔
      canonical.length ≤ maxChallengedLength := by
  have length : (challengeLabel ++ "." ++ canonical).length = 25 + canonical.length := by
    have label : challengeLabel.length = 24 := by decide
    have dot : ".".length = 1 := by decide
    rw [String.length_append, String.length_append, label, dot]
  constructor
  · intro name
    have short := name.short
    rw [length, maxRecordNameLength] at short
    rw [maxChallengedLength]
    omega
  · intro short
    rw [maxChallengedLength] at short
    refine ⟨by rw [length, maxRecordNameLength]; omega, ?_⟩
    have labels : split '.' (challengeLabel ++ "." ++ canonical) =
        challengeLabel :: split '.' canonical := split_append (by decide)
    rw [labels]
    intro label member
    rcases List.mem_cons.mp member with rfl | later
    · exact ⟨by decide, by decide, forall_of_all (by decide)⟩
    · exact canonical_labels lawful accepted label later

/-- The name of the record that an accepted registration issues is one that can be
published exactly if the hostname leaves room for the label. -/
theorem challenge_name_iff {environment : Environment} (lawful : environment.tables.Lawful)
    {application : Application} {hostname reference : String} {fresh : Fresh} {now : Time}
    {db after : Database} (keyed : db.Keyed) {domain : Domain}
    (ran : (claimDomain environment application hostname reference fresh now).run db =
      (.ok domain, after)) :
    ∃ canonical claim, canonicalize environment.tables hostname false = .ok canonical ∧
      domain.claims = [claim] ∧
      (IsRecordName claim.txtRecordName ↔ canonical.length ≤ maxChallengedLength) := by
  obtain ⟨registration, -⟩ := (claimDomain_spec keyed environment application hostname reference
    fresh now).result ran
  have issued := congrArg Domain.claims registration.eq
  exact ⟨domain.hostname, _, registration.canonical, issued,
    isRecordName_iff lawful registration.canonical⟩

end Names

/-! ## Two registrations -/

section Sample

def letters (count : Nat) : String := String.ofList (List.replicate count 'a')

/-- A hostname of 229 characters. -/
def longHostname : String :=
  letters 63 ++ "." ++ (letters 63 ++ "." ++ (letters 63 ++ "." ++ (letters 25 ++ "." ++
    "example.com")))

theorem longHostname_labels :
    split '.' longHostname =
      [letters 63, letters 63, letters 63, letters 25, "example", "com"] := by
  have absent (count : Nat) : '.' ∉ (letters count).toList := by simp [letters]
  have step (count : Nat) (rest : String) :
      split '.' (letters count ++ "." ++ rest) = letters count :: split '.' rest :=
    split_append (absent count)
  rw [longHostname, step, step, step, step]
  rfl

theorem longHostname_length : longHostname.length = 229 := by
  have count (number : Nat) : (letters number).length = number := by simp [letters]
  have dot : ".".length = 1 := rfl
  have apex : "example.com".length = 11 := rfl
  simp only [longHostname, String.length_append, count, dot, apex]

theorem longHostname_characters : ∀ character ∈ longHostname.toList,
    isLabelCharacter character = true ∨ character = '.' := by
  have letter : isLabelCharacter 'a' = true := by decide
  have apex : ∀ character ∈ "example.com".toList,
      isLabelCharacter character = true ∨ character = '.' := forall_of_all (by decide)
  intro character member
  simp only [longHostname, letters, String.toList_append, String.toList_ofList, List.mem_append,
    List.mem_replicate] at member
  have dot (inside : character ∈ ".".toList) : character = '.' := List.mem_singleton.mp inside
  rcases member with (⟨-, rfl⟩ | inside) | (⟨-, rfl⟩ | inside) | (⟨-, rfl⟩ | inside) |
    (⟨-, rfl⟩ | inside) | inside
  all_goals first | exact .inl letter | exact .inr (dot inside) | exact apex character inside

/-- The sample environment accepts a long enough name below `example.com`. -/
theorem sample_accepts {name : String} {labels : List String}
    (allowed : ∀ character ∈ name.toList, isLabelCharacter character = true ∨ character = '.')
    (short : name.length ≤ maxHostnameLength) (long : 11 < name.length)
    (pieces : split '.' name = labels ++ ["example", "com"]) (below : 0 < labels.length)
    (valid : ∀ label ∈ labels, validLabel label = true) :
    canonicalize sampleEnvironment.tables name false = .ok name := by
  have encode : sampleEnvironment.tables.idnaEncode name = .ok name :=
    if_pos (by simpa using allowed)
  have text : canonicalText sampleEnvironment.tables name = .ok name := by
    refine canonicalText_of_labels encode allowed short ?_ ?_
    · rw [pieces]
      intro label member
      rcases List.mem_append.mp member with front | apex
      · exact valid label front
      · have known : ∀ label ∈ ["example", "com"], validLabel label = true := by decide
        exact known label apex
    · have last : (labels ++ ["example", "com"]).getLast? = some "com" := by simp
      rw [pieces, last]
      decide
  have suffix : sampleEnvironment.tables.privateSuffix name = some "example.com" := by
    simp [sampleEnvironment, pieces]
  have other : "example.com" ≠ name := by
    rintro rfl
    exact absurd long (by decide)
  have rules : customerRules sampleEnvironment.tables name = .ok name := by
    have top : (split '.' name).getLast?.getD "" = "com" := by rw [pieces]; simp
    have enough : ¬ ("example.com" = name ∨ (split '.' name).length < minLabelsForSubdomain) := by
      rw [pieces, not_or, List.length_append, minLabelsForSubdomain]
      exact ⟨other, by simp only [List.length_cons, List.length_nil]; omega⟩
    simp only [customerRules, top, suffix, if_neg enough]
    rfl
  rw [canonicalize, text]
  exact rules

theorem longHostname_accepted :
    canonicalize sampleEnvironment.tables longHostname false = .ok longHostname := by
  have length := longHostname_length
  refine sample_accepts longHostname_characters (by rw [length]; decide) (by rw [length]; decide)
    (show _ = [letters 63, letters 63, letters 63, letters 25] ++ _ from longHostname_labels)
    (by decide) ?_
  decide

def claimAlone (hostname : String) : Sql Domain :=
  claimDomain sampleEnvironment sampleApplication hostname "workspace" ⟨2, 3, "token"⟩ 0

theorem claimAlone_runs {hostname canonical : String}
    (accepted : canonicalize sampleEnvironment.tables hostname false = .ok canonical) :
    ∃ domain after, (claimAlone hostname).run { applications := [sampleApplication] } =
        (.ok domain, after) := by
  have valid : (strip "workspace").isEmpty = false ∧
      "workspace".length ≤ maxReferenceLength := by decide
  rw [claimAlone, claimDomain, accepted]
  simp only [Program.require, valid, sampleApplication, if_true, and_self]
  exact ⟨_, _, rfl⟩

theorem challenge_name_short :
    ∃ domain after, (claimAlone "forms.example.com").run { applications := [sampleApplication] } =
        (.ok domain, after) ∧
      ∃ claim, domain.claims = [claim] ∧ IsRecordName claim.txtRecordName := by
  have accepted : canonicalize sampleEnvironment.tables "forms.example.com" false =
      .ok "forms.example.com" := rfl
  obtain ⟨domain, after, ran⟩ := claimAlone_runs accepted
  obtain ⟨canonical, claim, found, issued, valid⟩ :=
    challenge_name_iff sampleEnvironment_lawful (show Database.Keyed { applications := _ } from
      List.nodup_nil) ran
  cases found.symm.trans accepted
  exact ⟨domain, after, ran, claim, issued, valid.mpr (by decide)⟩

/-- A hostname is accepted whose challenge has no name. -/
theorem challenge_name_long :
    ∃ domain after, (claimAlone longHostname).run { applications := [sampleApplication] } =
        (.ok domain, after) ∧
      ∃ claim, domain.claims = [claim] ∧ ¬ IsRecordName claim.txtRecordName := by
  obtain ⟨domain, after, ran⟩ := claimAlone_runs longHostname_accepted
  obtain ⟨canonical, claim, found, issued, valid⟩ :=
    challenge_name_iff sampleEnvironment_lawful (show Database.Keyed { applications := _ } from
      List.nodup_nil) ran
  have same : canonical = longHostname :=
    Except.ok.inj (found.symm.trans longHostname_accepted)
  rw [same, longHostname_length] at valid
  exact ⟨domain, after, ran, claim, issued, valid.not.mpr (by decide)⟩

end Sample

end CustomDomain
