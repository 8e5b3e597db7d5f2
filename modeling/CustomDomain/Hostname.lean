import CustomDomain.PythonIpAddress

/-!
# Canonical hostnames

`app/hostname.py`: the canonical form of customer hostnames, and which names
are refused.  The IDNA encoder and the public suffix list are packages of
their own; they enter as `NameTables`, and `NameTables.Lawful` states what
their documentation promises and this code relies on.
-/

namespace CustomDomain

open PythonText PythonIp

/-- The two packages behind `canonicalize`: `idna.encode(name, uts46=True)`
with the text of the error it raises, and the private suffix (registrable
domain) of a name in the public suffix list. -/
structure NameTables where
  idnaEncode : String → Except String String
  privateSuffix : String → Option String

/-- Names that are never customer hostnames, whatever the suffix list says. -/
def reservedSuffixes : List String :=
  ["localhost", "local", "internal", "arpa", "onion", "invalid", "home", "lan", "corp"]

def maxHostnameLength : Nat := 253

def maxLabelLength : Nat := 63

def minLabelsForSubdomain : Nat := 3

structure InvalidHostname where
  code : String
  message : String
  deriving DecidableEq, Repr

def isLabelEnd (character : Char) : Bool :=
  ('a' ≤ character && character ≤ 'z') || character.isDigit

def isLabelCharacter (character : Char) : Bool :=
  isLabelEnd character || character == '-'

def labelShape : List Char → Bool
  | [] => false
  | first :: rest =>
      isLabelEnd first && rest.all isLabelCharacter &&
        isLabelEnd ((first :: rest).getLast (by simp))

/-- `_LABEL_RE.match`: the pattern's `$` also matches before a final newline. -/
def matchesLabel (label : List Char) : Bool :=
  labelShape label || (label.getLast? == some '\n' && labelShape label.dropLast)

def looksLikeIp (value : String) : Bool :=
  (ipAddress (stripOf ['[', ']'] value)).isSome

def validLabel (label : String) : Bool :=
  !label.toList.isEmpty && label.length ≤ maxLabelLength && matchesLabel label.toList

/-- The rules for every name, up to its canonical text. -/
def canonicalText (tables : NameTables) (raw : String) : Except InvalidHostname String :=
  let value := strip raw
  if value.isEmpty then .error ⟨"empty_hostname", "Hostname is required"⟩
  else
    let value := removeSuffix '.' value
    if value.toList.contains '*' then
      .error ⟨"wildcard_not_supported", "Wildcard hostnames are not supported"⟩
    else if looksLikeIp value then
      .error ⟨"ip_literal_not_supported", "IP addresses cannot be used as hostnames"⟩
    else if maxHostnameLength < value.length then
      .error ⟨"hostname_too_long", "Hostname exceeds 253 characters"⟩
    else
      match tables.idnaEncode value with
      | .error reason => .error ⟨"invalid_hostname", "Hostname is not valid: " ++ reason⟩
      | .ok encoded =>
          let encoded := lower encoded
          if maxHostnameLength < encoded.length then
            .error ⟨"hostname_too_long", "Hostname exceeds 253 characters"⟩
          else
            match (split '.' encoded).find? fun label => !validLabel label with
            | some label => .error ⟨"invalid_label", "Label '" ++ label ++ "' is not valid"⟩
            | none =>
                if ((split '.' encoded).getLast?.map isDigit) = some true then
                  .error ⟨"invalid_hostname", "Top-level label cannot be numeric"⟩
                else .ok encoded

/-- What else a customer hostname must satisfy: not reserved, not a public
suffix, and below its registrable domain. -/
def customerRules (tables : NameTables) (name : String) : Except InvalidHostname String :=
  let labels := split '.' name
  let top := labels.getLast?.getD ""
  if reservedSuffixes.contains top then
    .error ⟨"reserved_name", "Names under ." ++ top ++ " cannot be used as customer hostnames"⟩
  else
    match tables.privateSuffix name with
    | none => .error ⟨"public_suffix", name ++ " is a public suffix, not a customer hostname"⟩
    | some registrable =>
        if registrable = name ∨ labels.length < minLabelsForSubdomain then
          .error ⟨"apex_not_supported",
            "Only subdomains such as forms.example.com are supported; " ++ registrable ++
              " is the registrable (apex) domain"⟩
        else .ok name

/-- `canonicalize(raw, allow_apex=...)`; `None` is refused as the empty text is. -/
def canonicalize (tables : NameTables) (raw : String) (allowApex : Bool) :
    Except InvalidHostname String :=
  match canonicalText tables raw with
  | .error refused => .error refused
  | .ok name => if allowApex then .ok name else customerRules tables name

/-! ## Canonical names are fixed points -/

/-- What the code relies on of the IDNA encoder: the names it produces are
lowercase ASCII letters, digits, hyphens and dots, and it returns them
unchanged. -/
structure NameTables.Lawful (tables : NameTables) : Prop where
  encoded_characters : ∀ {name encoded}, tables.idnaEncode name = .ok encoded →
    ∀ character ∈ encoded.toList, isLabelCharacter character = true ∨ character = '.'
  encoded_fixed : ∀ {name encoded}, tables.idnaEncode name = .ok encoded →
    tables.idnaEncode encoded = .ok encoded

theorem hostCharacter_code {character : Char}
    (allowed : isLabelCharacter character = true ∨ character = '.') :
    character.toNat = 45 ∨ character.toNat = 46 ∨
      (48 ≤ character.toNat ∧ character.toNat ≤ 57) ∨
      (97 ≤ character.toNat ∧ character.toNat ≤ 122) := by
  rcases allowed with label | rfl
  · simp only [isLabelCharacter, isLabelEnd, Char.isDigit, Bool.or_eq_true, Bool.and_eq_true,
      decide_eq_true_eq, beq_iff_eq] at label
    rcases label with (⟨low, high⟩ | ⟨low, high⟩) | rfl
    · have low' : 97 ≤ character.toNat := low
      have high' : character.toNat ≤ 122 := high
      omega
    · have low' : 48 ≤ character.toNat := low
      have high' : character.toNat ≤ 57 := high
      omega
    · decide
  · decide

/-- The characters of canonical names, and so what the string methods leave
alone in them. -/
theorem hostCharacter_facts {character : Char}
    (allowed : isLabelCharacter character = true ∨ character = '.') :
    isSpace character = false ∧ character.toLower = character ∧ character ≠ '*' ∧
      character ≠ '[' ∧ character ≠ ']' ∧ character ≠ ':' ∧ character ≠ '%' := by
  have code := hostCharacter_code allowed
  have notUpper : ¬ (65 ≤ character.toNat ∧ character.toNat ≤ 90) := by omega
  refine ⟨?_, ?_, ?_, ?_, ?_, ?_, ?_⟩
  · simp only [isSpace]
    have := code
    simp only [Bool.or_eq_false_iff, Bool.and_eq_false_iff, decide_eq_false_iff_not, beq_eq_false_iff_ne]
    omega
  · unfold Char.toLower
    split
    next upper => exact absurd upper notUpper
    next => rfl
  all_goals
    rintro rfl
    revert code
    decide

section CanonicalText

variable {tables : NameTables} {raw name : String}

/-- Everything an accepted name has gone through. -/
theorem canonicalText_ok (accepted : canonicalText tables raw = .ok name) :
    ∃ value encoded, tables.idnaEncode value = .ok encoded ∧ name = lower encoded ∧
      name.length ≤ maxHostnameLength ∧
      (∀ label ∈ split '.' name, validLabel label = true) ∧
      (split '.' name).getLast?.map isDigit ≠ some true := by
  unfold canonicalText at accepted
  simp only at accepted
  split at accepted
  · cases accepted
  split at accepted
  · cases accepted
  split at accepted
  · cases accepted
  split at accepted
  · cases accepted
  split at accepted
  · cases accepted
  next encoded encode =>
    split at accepted
    · cases accepted
    next short =>
      split at accepted
      · cases accepted
      next valid =>
        split at accepted
        · cases accepted
        next notNumeric =>
          cases accepted
          refine ⟨_, encoded, encode, rfl, Nat.le_of_not_lt short, ?_, notNumeric⟩
          simpa using List.find?_eq_none.mp valid

/-- An accepted name is the encoder's output as it stands: it is already in
lower case. -/
theorem canonicalText_encoded (lawful : tables.Lawful)
    (accepted : canonicalText tables raw = .ok name) :
    (∃ value, tables.idnaEncode value = .ok name) ∧
      ∀ character ∈ name.toList, isLabelCharacter character = true ∨ character = '.' := by
  obtain ⟨value, encoded, encode, rfl, -⟩ := canonicalText_ok accepted
  have allowed := lawful.encoded_characters encode
  have same : lower encoded = encoded :=
    lower_of_none fun character member => (hostCharacter_facts (allowed character member)).2.1
  rw [same]
  exact ⟨⟨value, encode⟩, allowed⟩

/-- A final dot would leave an empty last label. -/
theorem getLast?_of_validLabels (valid : ∀ label ∈ split '.' name, validLabel label = true) :
    name.toList.getLast? ≠ some '.' := by
  intro dotted
  obtain ⟨front, shape⟩ := List.getLast?_eq_some_iff.mp dotted
  have empty : "" ∈ split '.' name := by
    rw [split, shape, List.splitOn_append_cons_self]
    simp
  exact absurd (valid "" empty) (by decide)

theorem removeSuffix_of_validLabels (valid : ∀ label ∈ split '.' name, validLabel label = true) :
    removeSuffix '.' name = name := by
  unfold removeSuffix
  split
  next dotted => exact absurd dotted (getLast?_of_validLabels valid)
  next => rfl

theorem looksLikeIp_of_labels
    (allowed : ∀ character ∈ name.toList, isLabelCharacter character = true ∨ character = '.')
    (notNumeric : (split '.' name).getLast?.map isDigit ≠ some true) :
    looksLikeIp name = false := by
  have noColon : ':' ∉ name.toList := fun member =>
    (hostCharacter_facts (allowed ':' member)).2.2.2.2.2.1 rfl
  have unbracketed : stripOf ['[', ']'] name = name := stripOf_of_none fun character member => by
    have facts := hostCharacter_facts (allowed character member)
    simp [facts.2.2.2.1, facts.2.2.2.2.1]
  have notV4 : parseIpv4 name = none := by
    by_contra parsed
    obtain ⟨value, parsed⟩ := Option.ne_none_iff_exists'.mp parsed
    obtain ⟨last, isLast, digits⟩ := isDigit_of_parseIpv4 parsed
    exact notNumeric (by rw [isLast, Option.map_some, digits])
  simp [looksLikeIp, unbracketed, ipAddress, notV4, parseIpv6_of_no_colon noColon]

/-- A name that the encoder leaves alone and whose labels are valid is canonical. -/
theorem canonicalText_of_labels (encode : tables.idnaEncode name = .ok name)
    (allowed : ∀ character ∈ name.toList, isLabelCharacter character = true ∨ character = '.')
    (short : name.length ≤ maxHostnameLength)
    (valid : ∀ label ∈ split '.' name, validLabel label = true)
    (notNumeric : (split '.' name).getLast?.map isDigit ≠ some true) :
    canonicalText tables name = .ok name := by
  have facts := fun character member => hostCharacter_facts (allowed character member)
  have stripped : strip name = name := strip_of_none fun character member =>
    (facts character member).1
  have nonempty : name.isEmpty = false := by
    by_contra empty
    have isNil : name = "" := by simpa using empty
    subst isNil
    exact absurd (valid "" (by decide)) (by decide)
  have noStar : name.toList.contains '*' = false := by
    by_contra star
    exact (facts '*' (by simpa using star)).2.2.1 rfl
  have lowered : lower name = name :=
    lower_of_none fun character member => (facts character member).2.1
  have labels : (split '.' name).find? (fun label => !validLabel label) = none :=
    List.find?_eq_none.mpr fun label member => by simp [valid label member]
  simp only [canonicalText, stripped, nonempty, removeSuffix_of_validLabels valid, noStar,
    looksLikeIp_of_labels allowed notNumeric, encode, lowered, labels,
    if_neg (Nat.not_lt.mpr short), if_neg notNumeric, Bool.false_eq_true, if_false]

theorem canonicalText_fixed (lawful : tables.Lawful)
    (accepted : canonicalText tables raw = .ok name) : canonicalText tables name = .ok name := by
  obtain ⟨⟨value, encode⟩, allowed⟩ := canonicalText_encoded lawful accepted
  obtain ⟨-, -, -, -, short, valid, notNumeric⟩ := canonicalText_ok accepted
  exact canonicalText_of_labels (lawful.encoded_fixed encode) allowed short valid notNumeric

end CanonicalText

theorem canonicalize_ok {tables : NameTables} {raw name : String} {allowApex : Bool}
    (accepted : canonicalize tables raw allowApex = .ok name) :
    canonicalText tables raw = .ok name ∧
      (allowApex = false → customerRules tables name = .ok name) := by
  unfold canonicalize at accepted
  split at accepted
  next => cases accepted
  next text found =>
    cases allowApex with
    | true =>
        simp only [if_true, Except.ok.injEq] at accepted
        exact ⟨accepted ▸ found, by simp⟩
    | false =>
        simp only [Bool.false_eq_true, if_false] at accepted
        have same : text = name := by
          unfold customerRules at accepted
          simp only at accepted
          split at accepted
          · cases accepted
          split at accepted
          · cases accepted
          split at accepted
          · cases accepted
          exact Except.ok.inj accepted
        subst same
        exact ⟨found, fun _ => accepted⟩

/-- A canonical name is accepted again, in the same mode, unchanged. -/
theorem canonicalize_fixed {tables : NameTables} (lawful : tables.Lawful) {raw name : String}
    {allowApex : Bool} (accepted : canonicalize tables raw allowApex = .ok name) :
    canonicalize tables name allowApex = .ok name := by
  obtain ⟨text, customer⟩ := canonicalize_ok accepted
  simp only [canonicalize, canonicalText_fixed lawful text]
  cases allowApex with
  | true => rfl
  | false => simpa using customer rfl

/-- A customer hostname is also a name of the wider kind. -/
theorem canonicalize_allowApex {tables : NameTables} {raw name : String} {allowApex : Bool}
    (accepted : canonicalize tables raw allowApex = .ok name) :
    canonicalize tables raw true = .ok name := by
  simp [canonicalize, (canonicalize_ok accepted).1]

theorem canonicalize_length {tables : NameTables} {raw name : String} {allowApex : Bool}
    (accepted : canonicalize tables raw allowApex = .ok name) :
    0 < name.length ∧ name.length ≤ maxHostnameLength := by
  obtain ⟨-, -, -, -, short, valid, -⟩ := canonicalText_ok (canonicalize_ok accepted).1
  refine ⟨?_, short⟩
  by_contra empty
  have isNil : name = "" := by simpa using empty
  subst isNil
  exact absurd (valid "" (by decide)) (by decide)

end CustomDomain
