import CustomDomain.JavaScript

/-!
# Signatures of webhook deliveries

`sign` writes the header of a delivery: its time, and for each secret of the
subscription an HMAC-SHA256 of the time and the body.  `verify_webhook` of the Python
package and `verifyWebhook` of the TypeScript one read it back.  HMAC-SHA256 is any
function of the key and the text with 32 bytes.
-/

namespace CustomDomain.WebhookSignature

open PythonText JavaScript

inductive SignatureErrorCode where
  | missing
  | malformed
  | stale
  | badSignature
  deriving DecidableEq, Repr

structure SignatureInvalid where
  code : SignatureErrorCode
  message : String
  deriving DecidableEq, Repr

/-- The loop over the parts of the header, the same in both packages but for how the
ends of a part are stripped and how a number is read. -/
def readParts {ν : Type} (strip : String → String) (number : String → Option ν) :
    Option ν → List String → List String → Except SignatureInvalid (Option ν × List String)
  | timestamp, given, [] => .ok (timestamp, given)
  | timestamp, given, part :: rest =>
      match partition '=' (strip part) with
      | none => readParts strip number timestamp given rest
      | some (key, value) =>
          if key = "t" then
            match number value with
            | none => .error ⟨.malformed, "Timestamp is not an integer"⟩
            | some found => readParts strip number (some found) given rest
          else if key = "v1" then readParts strip number timestamp (given ++ [value]) rest
          else readParts strip number timestamp given rest

/-- The sign of a number and the text after it. -/
def signed : List Char → Bool × List Char
  | '-' :: rest => (true, rest)
  | '+' :: rest => (false, rest)
  | text => (false, text)

def withSign (negative : Bool) (magnitude : Nat) : Int :=
  if negative then -magnitude else magnitude

/-- `bytes.hex`, the lowercase digits of each byte. -/
def hexdigest (bytes : List UInt8) : String :=
  String.ofList (bytes.flatMap fun byte =>
    [Nat.digitChar (byte.toNat / 16), Nat.digitChar (byte.toNat % 16)])

/-! ## The Python package and the service -/

/-- `str` of an integer. -/
def decimal (value : Int) : String :=
  String.ofList
    (if value < 0 then '-' :: Nat.toDigits 10 value.natAbs else Nat.toDigits 10 value.natAbs)

/-- The spaces that `int` skips. -/
def isIntSpace (character : Char) : Bool :=
  (9 ≤ character.toNat && character.toNat ≤ 13) || character.toNat == 32 ||
    (127 < character.toNat && isSpace character)

/-- The digits of `int`, how many there are and their value; an underscore stands
between two digits. -/
def scanDigits (underscore : Bool) (count value : Nat) : List Char → Option (Nat × Nat)
  | [] => if underscore then none else some (count, value)
  | character :: rest =>
      if character.isDigit then
        scanDigits false (count + 1) (10 * value + (character.toNat - '0'.toNat)) rest
      else if character = '_' ∧ underscore = false then scanDigits true count value rest
      else none

/-- `int` of a Latin-1 text, or `none` where it raises a `ValueError`. -/
def int (text : String) : Option Int :=
  let (negative, digits) := signed (trim isIntSpace text.toList)
  match scanDigits true 0 0 digits with
  | none => none
  | some (count, value) =>
      if intMaxStrDigits < count then none else some (withSign negative value)

/-- `any(hmac.compare_digest(expected, candidate) for candidate in given)`. -/
def anyMatches (expected : String) : List String → Option Bool
  | [] => some false
  | candidate :: rest =>
      match compareDigest expected candidate with
      | none => none
      | some true => some true
      | some false => anyMatches expected rest

/-- What `verify_webhook` raises. -/
inductive Raised where
  | invalid (refusal : SignatureInvalid)
  | typeError
  deriving DecidableEq, Repr

section

variable (hmac : List UInt8 → List UInt8 → List UInt8)

/-- The bytes that a signature covers. -/
def signedBytes (stamp : String) (body : List UInt8) : List UInt8 :=
  encodeUtf8 (stamp ++ ".") ++ body

/-- `_digest`. -/
def digest (secret : String) (timestamp : Int) (body : List UInt8) : String :=
  hexdigest (hmac (encodeUtf8 secret) (signedBytes (decimal timestamp) body))

/-- `sign`, or `none` where the timestamp has too many digits. -/
def sign (body : List UInt8) (secrets : List String) (timestamp : Int) : Option String :=
  if intMaxStrDigits < (Nat.toDigits 10 timestamp.natAbs).length then none
  else
    let parts := ("t=" ++ decimal timestamp) ::
      secrets.map fun secret => "v1=" ++ digest hmac secret timestamp body
    some (String.ofList ([','].intercalate (parts.map String.toList)))

/-- The loop over the secrets. -/
def matchSecrets (body : List UInt8) (timestamp : Int) (given : List String) :
    List String → Except Raised Int
  | [] => .error (.invalid ⟨.badSignature, "No signature matched"⟩)
  | secret :: rest =>
      match anyMatches (digest hmac secret timestamp body) given with
      | none => .error .typeError
      | some true => .ok timestamp
      | some false => matchSecrets body timestamp given rest

end

/-! ## The TypeScript package -/

namespace TypeScript

/-- `\d+(_\d+)*`. -/
def isGrouped (groups : List (List Char)) : Bool :=
  groups.all fun group => !group.isEmpty && group.all Char.isDigit

/-- `parseTimestamp`. -/
def parseTimestamp (value : String) : Option Number :=
  let (negative, digits) := signed (trim isTrimmed value.toList)
  let groups := digits.splitOn '_'
  if isGrouped groups then some (ofInt (withSign negative (Nat.ofDigitChars 10 groups.flatten 0)))
  else none

def isLowerHex (character : Char) : Bool :=
  character.isDigit || ('a'.toNat ≤ character.toNat && character.toNat ≤ 'f'.toNat)

def hexValue (character : Char) : Nat :=
  if character.isDigit then character.toNat - '0'.toNat else character.toNat - 'a'.toNat + 10

/-- What `verifyWebhook` throws: its own error, or that of Web Crypto for an empty
key. -/
inductive Thrown where
  | invalid (refusal : SignatureInvalid)
  | dataError
  deriving DecidableEq, Repr

section

variable (hmac : List UInt8 → List UInt8 → List UInt8)

/-- The loop over the secrets. -/
def matchSecrets (signed : List UInt8) (timestamp : Number) (candidates : List (List UInt8)) :
    List String → Except Thrown Number
  | [] => .error (.invalid ⟨.badSignature, "No signature matched"⟩)
  | secret :: rest =>
      if encodeUtf8 secret = [] then .error .dataError
      else if candidates.any fun candidate => hmac (encodeUtf8 secret) signed = candidate then
        .ok timestamp
      else matchSecrets signed timestamp candidates rest

end

end TypeScript

/-! ## The numbers of the header -/

section Numbers

/-- The scanner of `int` accepts the texts of the regular expression. -/
theorem scanDigits_eq (digits : List Char) (underscore : Bool) (count value : Nat) :
    scanDigits underscore count value digits =
      if (!underscore || (digits.splitOn '_').head?.any (!·.isEmpty)) &&
          (digits.splitOn '_').all (·.all Char.isDigit) &&
          (digits.splitOn '_').tail.all (!·.isEmpty) then
        some (count + (digits.filter Char.isDigit).length,
          Nat.ofDigitChars 10 (digits.splitOn '_').flatten value)
      else none := by
  induction digits generalizing underscore count value with
  | nil => cases underscore <;> simp [scanDigits]
  | cons character rest ih =>
      obtain ⟨first, later, groups⟩ : ∃ first later, rest.splitOn '_' = first :: later :=
        List.exists_cons_of_ne_nil (List.splitOn_ne_nil _ _)
      rw [scanDigits, List.splitOn_cons_eq_if_modifyHead]
      by_cases digit : character.isDigit = true
      · have other : (character == '_') = false := by
          rw [beq_eq_false_iff_ne]
          rintro rfl
          cases digit
        rw [if_pos digit, ih, groups]
        simp [other, digit, Nat.ofDigitChars_cons, Nat.add_comm, Nat.add_left_comm]
      · rw [if_neg digit]
        by_cases mark : character = '_'
        · subst mark
          cases underscore with
          | false =>
              rw [if_pos ⟨rfl, rfl⟩, ih, groups]
              simp [and_left_comm, and_assoc]
          | true => simp
        · rw [if_neg (by simp [mark])]
          simp [mark, groups, digit]

theorem scanDigits_start (digits : List Char) :
    scanDigits true 0 0 digits =
      if TypeScript.isGrouped (digits.splitOn '_') then
        some ((digits.filter Char.isDigit).length,
          Nat.ofDigitChars 10 (digits.splitOn '_').flatten 0)
      else none := by
  obtain ⟨first, later, groups⟩ : ∃ first later, digits.splitOn '_' = first :: later :=
    List.exists_cons_of_ne_nil (List.splitOn_ne_nil _ _)
  rw [scanDigits_eq, groups, TypeScript.isGrouped]
  simp [and_assoc, forall_and, and_left_comm, and_comm]

theorem signed_sublist (text : List Char) : (signed text).2.Sublist text := by
  unfold signed
  split
  · exact List.sublist_cons_self _ _
  · exact List.sublist_cons_self _ _
  · exact List.Sublist.refl _

theorem trim_sublist (test : Char → Bool) (text : List Char) : (trim test text).Sublist text :=
  (List.rdropWhile_prefix _ _).sublist.trans (List.dropWhile_suffix _).sublist

/-- Spaces that only one of the two skips stand nowhere in front, and the digits are
not too many. -/
structure PlainNumber (value : String) : Prop where
  spaces : trim isIntSpace value.toList = trim isTrimmed value.toList
  digits : (value.toList.filter Char.isDigit).length ≤ intMaxStrDigits

theorem PlainNumber.parseTimestamp {value : String} (plain : PlainNumber value) :
    TypeScript.parseTimestamp value = (int value).map ofInt := by
  have fits : ((signed (trim isIntSpace value.toList)).2.filter Char.isDigit).length ≤
      intMaxStrDigits :=
    (((signed_sublist _).trans (trim_sublist _ _)).filter _).length_le.trans plain.digits
  rw [TypeScript.parseTimestamp, int, ← plain.spaces]
  generalize signed (trim isIntSpace value.toList) = parts at fits
  obtain ⟨negative, digits⟩ := parts
  simp only [scanDigits_start]
  split
  next => simp [Nat.not_lt.mpr fits]
  next => rfl

end Numbers

/-! ## The digits of a signature -/

section Digests

open WebhookSignature.TypeScript

theorem hexValue_digitChar : ∀ value < 16, hexValue (Nat.digitChar value) = value ∧
    isLowerHex (Nat.digitChar value) = true ∧ (Nat.digitChar value).toNat < 128 := by
  decide

theorem digitChar_hexValue {character : Char} (lower : isLowerHex character = true) :
    hexValue character < 16 ∧ Nat.digitChar (hexValue character) = character := by
  have code : (48 ≤ character.toNat ∧ character.toNat ≤ 57) ∨
      (97 ≤ character.toNat ∧ character.toNat ≤ 102) := by
    simp only [isLowerHex, Char.isDigit, Bool.or_eq_true, Bool.and_eq_true,
      decide_eq_true_iff] at lower
    rcases lower with digit | letter
    · exact .inl ⟨digit.1, digit.2⟩
    · exact .inr letter
  have small : ∀ code < 128, (48 ≤ code ∧ code ≤ 57) ∨ (97 ≤ code ∧ code ≤ 102) →
      hexValue (Char.ofNat code) < 16 ∧
        Nat.digitChar (hexValue (Char.ofNat code)) = Char.ofNat code := by
    decide
  have found := small character.toNat (by omega) code
  rwa [Char.ofNat_toNat] at found

theorem hexdigest_lower (bytes : List UInt8) :
    ∀ character ∈ (hexdigest bytes).toList, isLowerHex character = true ∧
      character.toNat < 128 := by
  intro character member
  rw [hexdigest, String.toList_ofList, List.mem_flatMap] at member
  obtain ⟨byte, -, member⟩ := member
  have high := hexValue_digitChar (byte.toNat / 16) (by have := byte.toNat_lt; omega)
  have low := hexValue_digitChar (byte.toNat % 16) (by omega)
  simp only [List.mem_cons, List.not_mem_nil, or_false] at member
  rcases member with rfl | rfl
  · exact high.2
  · exact low.2

end Digests

/-! ## The parts of the header -/

section Parts

/-- The key and the value of a part, as Python reads it. -/
def item (part : String) : Option (String × String) := partition '=' (strip part)

/-- The values of the parts `v1=`. -/
def values (parts : List String) : List String :=
  parts.filterMap fun part => (item part).bind fun found =>
    if found.1 = "v1" then some found.2 else none

/-- Both packages strip the same characters from the ends of each part and of the
numbers, and no number has too many digits. -/
structure ReadAlike (parts : List String) : Prop where
  ends : ∀ part ∈ parts, strip part = trimmed part
  numbers : ∀ part ∈ parts, ∀ value, item part = some ("t", value) → PlainNumber value

theorem ReadAlike.readParts {parts : List String} (alike : ReadAlike parts)
    (timestamp : Option Int) (given : List String) :
    readParts trimmed TypeScript.parseTimestamp (timestamp.map ofInt) given parts =
      (readParts strip int timestamp given parts).map
        fun found => (found.1.map ofInt, found.2) := by
  induction parts generalizing timestamp given with
  | nil => rfl
  | cons part rest ih =>
      have later : ReadAlike rest :=
        ⟨fun part member => alike.ends part (List.mem_cons_of_mem _ member),
          fun part member => alike.numbers part (List.mem_cons_of_mem _ member)⟩
      have plain := alike.numbers part List.mem_cons_self
      rw [WebhookSignature.readParts, WebhookSignature.readParts,
        ← alike.ends part List.mem_cons_self]
      rw [item] at plain
      cases found : partition '=' (strip part) with
      | none => exact ih later timestamp given
      | some pair =>
          obtain ⟨key, value⟩ := pair
          dsimp only
          split
          next isTime =>
            subst isTime
            rw [(plain value found).parseTimestamp]
            cases int value with
            | none => rfl
            | some stamp => exact ih later (some stamp) given
          next =>
            split
            · exact ih later timestamp (given ++ [value])
            · exact ih later timestamp given

variable {ν : Type} {strip : String → String} {number : String → Option ν}

/-- What a package reads in a header, if it takes every `t=` for a number and finds one, and finds
a value `v1=`: the last number, and the values. -/
def reading {ν : Type} (strip : String → String) (number : String → Option ν)
    (header : Option String) : Option (ν × List String) :=
  header.bind fun text =>
    match WebhookSignature.readParts strip number none [] (split ',' text) with
    | .ok (some stamp, first :: rest) => some (stamp, first :: rest)
    | _ => none

/-- A header that is read alike gives both packages the same number and values. -/
theorem ReadAlike.reading {text : String} (alike : ReadAlike (split ',' text)) :
    reading trimmed TypeScript.parseTimestamp (some text) =
      (WebhookSignature.reading PythonText.strip int (some text)).map
        fun found => (ofInt found.1, found.2) := by
  have read := alike.readParts none []
  rw [Option.map_none] at read
  rw [WebhookSignature.reading, WebhookSignature.reading, Option.bind_some, Option.bind_some, read]
  rcases WebhookSignature.readParts PythonText.strip int none [] (split ',' text) with
    refusal | ⟨_ | stamp, _ | ⟨first, rest⟩⟩ <;> rfl

end Parts

/-! ## The verifiers agree -/

section Agreement

/-- The same timestamp, or the same code. -/
inductive Agree : Except Raised Int → Except TypeScript.Thrown Number → Prop where
  | accepted (timestamp : Int) : Agree (.ok timestamp) (.ok (.finite timestamp))
  | refused {first second : SignatureInvalid} (code : first.code = second.code) :
      Agree (.error (.invalid first)) (.error (.invalid second))

variable {hmac : List UInt8 → List UInt8 → List UInt8} {body : List UInt8}
  {secrets : List String} {now tolerance : Int}

variable (hmac body secrets) in
/-- The signature by one of the secrets over this text of the time stands among the values. -/
def SignedBy (stamp : String) (given : List String) : Prop :=
  ∃ secret ∈ secrets, hexdigest (hmac (encodeUtf8 secret) (signedBytes stamp body)) ∈ given

instance (stamp : String) (given : List String) : Decidable (SignedBy hmac body secrets stamp given) :=
  inferInstanceAs (Decidable (∃ secret ∈ secrets, _))

variable (now tolerance) in
/-- The package for TypeScript finds the delivery stale. -/
def TypeScript.isStale (number : Number) : Bool :=
  ((ofInt now).floor.sub number).abs.exceeds (ofInt tolerance)

variable (hmac body secrets now tolerance) in
/-- How the two readings of a header go together: neither package finds a time and a value in it, to
both the time is stale, or to both it is fresh and both find a signature over the same time or
neither finds one. -/
inductive Alike : Option (Int × List String) → Option (Number × List String) → Prop where
  | unread : Alike none none
  | stale {timestamp : Int} {number : Number} {given other : List String}
      (python : tolerance < |now - timestamp|)
      (typescript : TypeScript.isStale now tolerance number = true) :
      Alike (some (timestamp, given)) (some (number, other))
  | signed {timestamp : Int} {given other : List String} (python : |now - timestamp| ≤ tolerance)
      (typescript : TypeScript.isStale now tolerance (.finite timestamp) = false)
      (first : SignedBy hmac body secrets (decimal timestamp) given)
      (second : SignedBy hmac body secrets (Number.finite timestamp).text other) :
      Alike (some (timestamp, given)) (some (.finite timestamp, other))
  | unsigned {timestamp : Int} {number : Number} {given other : List String}
      (python : |now - timestamp| ≤ tolerance)
      (typescript : TypeScript.isStale now tolerance number = false)
      (first : ¬ SignedBy hmac body secrets (decimal timestamp) given)
      (second : ¬ SignedBy hmac body secrets number.text other) :
      Alike (some (timestamp, given)) (some (number, other))

section Text

variable {text : String} {timestamp : Int} {number : Number} {given : List String}

end Text

end Agreement

/-! ## What is signed is accepted -/

section Signed

variable {hmac : List UInt8 → List UInt8 → List UInt8} {body : List UInt8}
  {secrets : List String} {timestamp : Int} {header : String}

theorem decimal_characters (value : Int) :
    ∀ character ∈ (decimal value).toList, character = '-' ∨ character.isDigit = true := by
  intro character member
  rw [decimal, String.toList_ofList] at member
  have digits : character ∈ Nat.toDigits 10 value.natAbs → character.isDigit = true :=
    Nat.isDigit_of_mem_toDigits (by decide) (by decide)
  split at member
  · rcases List.mem_cons.mp member with rfl | member
    · exact .inl rfl
    · exact .inr (digits member)
  · exact .inr (digits member)

/-- No space, and no comma. -/
def isWord (character : Char) : Bool :=
  33 ≤ character.toNat && character.toNat < 127 && character ≠ ','

theorem isWord_of_isDigit {character : Char} (digit : character.isDigit = true) :
    isWord character = true := by
  have code : 48 ≤ character.toNat ∧ character.toNat ≤ 57 := by
    simp only [Char.isDigit, Bool.and_eq_true, decide_eq_true_iff] at digit
    exact digit
  have other : character ≠ ',' := by
    rintro rfl
    cases digit
  simp only [isWord, Bool.and_eq_true, decide_eq_true_iff]
  exact ⟨⟨by omega, by omega⟩, other⟩

theorem decimal_words (value : Int) :
    ∀ character ∈ (decimal value).toList, isWord character = true := by
  intro character member
  rcases decimal_characters value character member with rfl | digit
  · rfl
  · exact isWord_of_isDigit digit

theorem hexdigest_words (bytes : List UInt8) :
    ∀ character ∈ (hexdigest bytes).toList, isWord character = true := by
  have digits : ∀ value < 16, isWord (Nat.digitChar value) = true := by decide
  intro character member
  obtain ⟨lower, -⟩ := hexdigest_lower bytes character member
  obtain ⟨small, same⟩ := digitChar_hexValue lower
  rw [← same]
  exact digits _ small

/-- The parts of the header. -/
def signedParts (hmac : List UInt8 → List UInt8 → List UInt8) (body : List UInt8)
    (secrets : List String) (timestamp : Int) : List String :=
  ("t=" ++ decimal timestamp) ::
    secrets.map fun secret => "v1=" ++ digest hmac secret timestamp body

theorem append_words {key value : String} (first : key.toList.all isWord = true)
    (second : ∀ character ∈ value.toList, isWord character = true) :
    ∀ character ∈ (key ++ value).toList, isWord character = true := by
  intro character member
  rw [String.toList_append, List.mem_append] at member
  rcases member with member | member
  · exact List.all_eq_true.mp first character member
  · exact second character member

theorem time_words (timestamp : Int) :
    ∀ character ∈ ("t=" ++ decimal timestamp).toList, isWord character = true :=
  append_words (by decide) (decimal_words timestamp)

theorem value_words (bytes : List UInt8) :
    ∀ character ∈ ("v1=" ++ hexdigest bytes).toList, isWord character = true :=
  append_words (by decide) (hexdigest_words bytes)

theorem signedParts_words :
    ∀ part ∈ signedParts hmac body secrets timestamp, ∀ character ∈ part.toList,
      isWord character = true := by
  intro part member
  rcases List.mem_cons.mp member with rfl | member
  · exact time_words timestamp
  · obtain ⟨secret, -, rfl⟩ := List.mem_map.mp member
    exact value_words _

theorem sign_eq_some (written : sign hmac body secrets timestamp = some header) :
    (Nat.toDigits 10 timestamp.natAbs).length ≤ intMaxStrDigits ∧
      split ',' header = signedParts hmac body secrets timestamp := by
  rw [sign] at written
  split at written
  next => cases written
  next short =>
    cases written
    refine ⟨not_lt.mp short, ?_⟩
    rw [split, String.toList_ofList, List.splitOn_intercalate]
    · exact (List.map_map ..).trans (List.map_id'' (fun _ => String.ofList_toList) _)
    · intro characters member comma
      obtain ⟨part, inside, rfl⟩ := List.mem_map.mp member
      cases signedParts_words part inside ',' comma
    · simp

variable {held : List String} {now tolerance : Int}

end Signed

/-! ## The two packages -/

end CustomDomain.WebhookSignature
