import CustomDomain.JsonText
import CustomDomain.PythonUrl

/-!
# The apply URL of Domain Connect

A DNS provider's settings document gives the URL that its customers confirm a change at:
`parse_settings` and `https_url` of `app/dns/domain_connect.py`.  `apply_url` of
`app/dns/signing.py` adds the path of the template, the signed query and the signature.
-/

namespace CustomDomain.ApplyUrl

open PythonText PythonUrl JsonText

/-! ## Settings documents -/

/-- `MAX_URL`. -/
def maxUrl : Nat := 512

/-- `MAX_TEXT`. -/
def maxText : Nat := 128

/-- What `_CONTROL` matches. -/
def isControl (character : Char) : Bool := character.toNat ≤ 0x1f || character.toNat == 0x7f

/-- `_clean`. -/
def clean : Option Value → Option String
  | some (.str text) =>
      let plain := strip (String.ofList (text.toList.filter fun character => !isControl character))
      let cleaned := String.ofList (plain.toList.take maxText)
      if cleaned.isEmpty then none else some cleaned
  | _ => none

/-- An attribute that is missing or empty. -/
def isFalsy (text : Option String) : Bool := text.all String.isEmpty

/-- `https_url` of a text. -/
def httpsUrlText (tables : UnicodeTables) (text : String) : Option String :=
  if maxUrl < text.length || text.toList.any isControl then none
  else
    match urlsplit tables (strip text) with
    | none => none
    | some parts =>
        match parts.port with
        | .error _ => none
        | .ok port =>
            if parts.scheme ≠ "https" || isFalsy (parts.hostname tables) ||
                !isFalsy parts.username || !isFalsy parts.password then none
            else if !(port == none || port == some 443) || !parts.query.isEmpty ||
                !parts.fragment.isEmpty then none
            else some (rstripOf '/' (strip text))

/-- `https_url`. -/
def httpsUrl (tables : UnicodeTables) : Option Value → Option String
  | some (.str text) => httpsUrlText tables text
  | _ => none

/-- The settings that discovery keeps. -/
structure Settings where
  providerId : String
  providerName : Option String
  providerDisplayName : Option String
  urlApi : String
  urlSyncUx : Option String
  deriving DecidableEq

/-- `parse_settings`; an error is the message of `settings_invalid`. -/
def parseSettings (tables : UnicodeTables) (body : String) : Except String Settings :=
  match read body with
  | none => .error "The settings answer is not JSON"
  | some (.obj data) =>
      match clean (member? "providerId" data), httpsUrl tables (member? "urlAPI" data) with
      | some providerId, some urlApi =>
          .ok {
            providerId := providerId
            providerName := clean (member? "providerName" data)
            providerDisplayName := clean (member? "providerDisplayName" data)
            urlApi := urlApi
            urlSyncUx := httpsUrl tables (member? "urlSyncUX" data) }
      | _, _ => .error "The settings answer lacks providerId or an https urlAPI"
  | some _ => .error "The settings answer is not a JSON object"

/-! ## The URL -/

def isIdentifierCharacter (character : Char) : Bool :=
  character.isAlphanum || character == '.' || character == '_' || character == '-'

/-- `IDENTIFIER` without its end: 1 to 64 characters, a letter or digit at both ends. -/
def isIdentifierBody (body : List Char) : Bool :=
  body.length ≤ 64 && body.all isIdentifierCharacter && body.head?.any Char.isAlphanum &&
    body.getLast?.any Char.isAlphanum

/-- `IDENTIFIER.match`; its `$` also matches before a line feed at the end. -/
def isIdentifier (text : String) : Bool :=
  isIdentifierBody text.toList ||
    (text.toList.getLast? == some '\n' && isIdentifierBody text.toList.dropLast)

structure Signature where
  key : String
  sig : String

/-- `canonical_query`. -/
def canonicalQuery (params : List (String × String)) : String := urlencode params

/-- `apply_url`. -/
def applyUrl (urlSyncUx providerId serviceId query : String) (signature : Signature) : String :=
  rstripOf '/' urlSyncUx ++ "/v2/domainTemplates/providers/" ++ quote providerId ++
    "/services/" ++ quote serviceId ++ "/apply?" ++ query ++
    "&key=" ++ quote signature.key ++ "&sig=" ++ quote signature.sig

/-- The URL is at the host and path of the provider and the template, and asks for what was
signed. -/
def IsSigned (tables : UnicodeTables) (urlSyncUx providerId serviceId : String)
    (params : List (String × String)) (signature : Signature) (url : String) : Prop :=
  ∃ parts base, urlsplit tables url = some parts ∧ urlsplit tables urlSyncUx = some base ∧
    parts.scheme = "https" ∧ parts.fragment = "" ∧
    parts.hostname tables = base.hostname tables ∧
    parts.path = base.path ++ "/v2/domainTemplates/providers/" ++ providerId ++
      "/services/" ++ serviceId ++ "/apply" ∧
    parts.query = canonicalQuery params ++ "&key=" ++ quote signature.key ++
      "&sig=" ++ quote signature.sig ∧
    parseQsl (canonicalQuery params) = params ∧
    parseQsl parts.query = params ++ [("key", signature.key), ("sig", signature.sig)]

/-! ## An accepted base URL -/

theorem rdropWhile_append {test : Char → Bool} {first : List Char} (last : List Char)
    (stop : ∃ before character, first = before ++ [character] ∧ test character = false) :
    (first ++ last).rdropWhile test = first ++ last.rdropWhile test := by
  obtain ⟨before, character, rfl, stop⟩ := stop
  induction last using List.reverseRecOn with
  | nil => simp [stop]
  | append_singleton last next ih =>
      rw [← List.append_assoc, List.rdropWhile_concat, List.rdropWhile_concat]
      split_ifs
      · exact ih
      · rw [List.append_assoc]

/-- What the accepted text looks like: an https URL at a host, with nothing behind the marks
of a query and a fragment. -/
structure Base (tables : UnicodeTables) (text name netloc tail : List Char) : Prop where
  located : Located text name netloc tail
  scheme : name.map Char.toLower = "https".toList
  hosted : netloc ≠ []
  ok : netlocOk tables (String.ofList netloc) = true
  plain : ∀ character ∈ text, isRemoved character = false

theorem Base.cleaned {tables : UnicodeTables} {text name netloc tail : List Char}
    (base : Base tables text name netloc tail) : cleaned text = text := by
  refine cleaned_eq (fun character starts => ?_) base.plain
  obtain ⟨first, rest, rfl, alpha⟩ := base.located.alpha
  rw [base.located.text, List.cons_append, List.head?_cons, Option.mem_some] at starts
  rw [← starts]
  exact isStripped_of_isAlpha alpha

theorem head_trim {test : Char → Bool} {text : List Char} {character : Char}
    (starts : character ∈ (trim test text).head?) : test character = false := by
  unfold trim at starts
  obtain ⟨rest, whole⟩ := List.rdropWhile_prefix test (l := text.dropWhile test)
  have some_ : text.dropWhile test ≠ [] := by
    intro none
    rw [none] at starts
    cases starts
  have first : (text.dropWhile test).head? = some character := by
    rw [← whole, List.head?_append, Option.mem_def.mp starts]
    rfl
  rw [List.head?_eq_some_head some_, Option.some.injEq] at first
  rw [← first]
  exact List.head_dropWhile_not test some_

theorem mem_of_mem_trim {test : Char → Bool} {text : List Char} {character : Char}
    (member : character ∈ trim test text) : character ∈ text :=
  (List.dropWhile_suffix test).subset ((List.rdropWhile_prefix test _).subset member)

theorem isRemoved_of_not_isControl {character : Char} (plain : isControl character = false) :
    isRemoved character = false := by
  rw [Bool.eq_false_iff]
  intro removed
  simp only [isRemoved, Bool.or_eq_true, beq_iff_eq] at removed
  rcases removed with (rfl | rfl) | rfl <;> cases plain

theorem isStripped_of_printed {character : Char} (space : PythonText.isSpace character = false)
    (control : isControl character = false) : isStripped character = false := by
  simp only [PythonText.isSpace, isControl, isStripped, Bool.or_eq_false_iff, Bool.and_eq_false_iff,
    decide_eq_false_iff_not, beq_eq_false_iff_ne] at space control ⊢
  omega

variable {tables : UnicodeTables} {text ux : String}

/-- An https URL that has a host. -/
theorem exists_base {url : String} {parts : SplitResult} (split : urlsplit tables url = some parts)
    (clean : cleaned url.toList = url.toList)
    (plain : ∀ character ∈ url.toList, isRemoved character = false)
    (scheme : parts.scheme = "https") (host : ¬ isFalsy (parts.hostname tables) = true) :
    ∃ name netloc tail, Base tables url.toList name netloc tail ∧
      parts = assemble name netloc tail := by
  have hosted : parts.netloc ≠ "" := by
    intro nowhere
    have missing : parts.hostname tables = none := by
      have info : parts.hostinfo = ("", none) := by
        unfold SplitResult.hostinfo
        rw [nowhere]
        rfl
      rw [SplitResult.hostname, info]
      rfl
    rw [missing] at host
    exact host rfl
  obtain ⟨name, netloc, tail, located, ok, same⟩ :=
    exists_located split (by rw [scheme]; decide) hosted
  rw [clean] at located
  subst same
  refine ⟨name, netloc, tail, ⟨located, String.ofList_injective scheme, ?_, ok, plain⟩, rfl⟩
  rintro rfl
  exact hosted rfl

theorem httpsUrlText_some (accepted : httpsUrlText tables text = some ux) :
    ∃ name netloc tail, Base tables (strip text).toList name netloc tail ∧
      (breakAt '#' tail).2 = [] ∧ (breakAt '?' (breakAt '#' tail).1).2 = [] ∧
      ux = rstripOf '/' (strip text) := by
  unfold httpsUrlText at accepted
  split_ifs at accepted with refused
  rw [Bool.or_eq_true, not_or, List.any_eq_true] at refused
  have printed : ∀ character ∈ text.toList, isControl character = false := fun character member =>
    Bool.eq_false_iff.mpr fun control => refused.2 ⟨character, member, control⟩
  split at accepted
  next => cases accepted
  next parts split =>
    split at accepted
    next => cases accepted
    next port _ =>
      split_ifs at accepted with host marks
      simp only [Bool.or_eq_true, not_or, decide_eq_true_eq, not_not, Bool.not_eq_true',
        Bool.not_eq_false] at host marks
      obtain ⟨⟨⟨scheme, host⟩, -⟩, -⟩ := host
      obtain ⟨⟨-, query⟩, fragment⟩ := marks
      have inside : ∀ character ∈ (strip text).toList, isControl character = false := by
        intro character member
        rw [strip, String.toList_ofList] at member
        exact printed character (mem_of_mem_trim member)
      have clean : cleaned (strip text).toList = (strip text).toList := by
        refine cleaned_eq (fun character starts => ?_) fun character member =>
          isRemoved_of_not_isControl (inside character member)
        have control := inside character (List.mem_of_mem_head? starts)
        rw [strip, String.toList_ofList] at starts
        exact isStripped_of_printed (head_trim starts) control
      have removed : ∀ character ∈ (strip text).toList, isRemoved character = false :=
        fun character member => isRemoved_of_not_isControl (inside character member)
      obtain ⟨name, netloc, tail, base, same⟩ := exists_base split clean removed scheme host
      subst same
      exact ⟨name, netloc, tail, base, String.ofList_injective (String.isEmpty_iff.mp fragment),
        String.ofList_injective (String.isEmpty_iff.mp query), (Option.some.inj accepted).symm⟩

section Bases

variable {base name netloc tail : List Char}

theorem Base.rstrip (base_ : Base tables base name netloc tail) :
    Base tables (base.rdropWhile (· == '/')) name netloc (tail.rdropWhile (· == '/')) := by
  have front : ∃ before character, name ++ ':' :: '/' :: '/' :: netloc = before ++ [character] ∧
      (character == '/') = false := by
    obtain ⟨before, character, rfl⟩ := List.eq_nil_or_concat netloc |>.resolve_left base_.hosted
    refine ⟨name ++ ':' :: '/' :: '/' :: before, character, by simp, ?_⟩
    have plain := base_.located.netloc character (by simp)
    simp only [isDelimiter, Bool.or_eq_false_iff] at plain
    exact plain.1.1
  have text : base.rdropWhile (· == '/') =
      name ++ ':' :: '/' :: '/' :: (netloc ++ tail.rdropWhile (· == '/')) := by
    have split : base = (name ++ ':' :: '/' :: '/' :: netloc) ++ tail := by
      rw [base_.located.text]
      simp
    rw [split, rdropWhile_append tail front]
    simp
  have first (character : Char) (starts : character ∈ (tail.rdropWhile (· == '/')).head?) :
      character ∈ tail.head? := by
    obtain ⟨rest, whole⟩ := List.rdropWhile_prefix (· == '/') tail
    rw [← whole, List.head?_append, Option.mem_def.mp starts]
    rfl
  exact {
    located := ⟨text, base_.located.alpha, base_.located.characters, base_.located.netloc,
      fun character starts => base_.located.tail character (first character starts)⟩
    scheme := base_.scheme
    hosted := base_.hosted
    ok := base_.ok
    plain := fun character member =>
      base_.plain character ((List.rdropWhile_prefix _ _).subset member) }

/-- A URL goes on behind its base at a slash. -/
theorem Base.append (base_ : Base tables base name netloc tail) {suffix : List Char}
    (starts : suffix.head? = some '/') (plain : ∀ character ∈ suffix, isRemoved character = false) :
    Base tables (base ++ suffix) name netloc (tail ++ suffix) where
  located := by
    refine ⟨by rw [base_.located.text]; simp, base_.located.alpha, base_.located.characters,
      base_.located.netloc, fun character first => ?_⟩
    cases tail with
    | nil =>
        rw [List.nil_append, starts, Option.mem_some] at first
        rw [← first]
        rfl
    | cons next rest => exact base_.located.tail character first
  scheme := base_.scheme
  hosted := base_.hosted
  ok := base_.ok
  plain := fun character member => (List.mem_append.mp member).elim (base_.plain character)
    (plain character)

theorem Base.urlsplit {url : String} (base_ : Base tables url.toList name netloc tail) :
    urlsplit tables url = some (assemble name netloc tail) := by
  refine Located.urlsplit ?_ base_.ok
  rw [base_.cleaned]
  exact base_.located

end Bases

/-! ## What is appended -/

/-- The characters of the template's path and the signed query. -/
def isPlain (character : Char) : Bool := isQuoted character || ['/', '=', '&'].contains character

def templatePath (providerId serviceId : String) : String :=
  "/v2/domainTemplates/providers/" ++ providerId ++ "/services/" ++ serviceId ++ "/apply"

def signedQuery (params : List (String × String)) (signature : Signature) : String :=
  canonicalQuery params ++ "&key=" ++ quote signature.key ++ "&sig=" ++ quote signature.sig

theorem not_plain_marks : isPlain '?' = false ∧ isPlain '#' = false ∧ isPlain '\n' = false := by
  decide

theorem isRemoved_of_isPlain {character : Char} (plain : isPlain character = true) :
    isRemoved character = false := by
  rw [Bool.eq_false_iff]
  intro removed
  simp only [isRemoved, Bool.or_eq_true, beq_iff_eq] at removed
  rcases removed with (rfl | rfl) | rfl <;> revert plain <;> decide

/-- Every character of the text is plain. -/
def Plain (text : String) : Prop := ∀ character ∈ text.toList, isPlain character = true

theorem Plain.append {first second : String} (before : Plain first) (after : Plain second) :
    Plain (first ++ second) := by
  intro character member
  rw [String.toList_append, List.mem_append] at member
  exact member.elim (before character) (after character)

theorem Plain.of_all {text : String} (all : text.toList.all isPlain = true) : Plain text :=
  List.all_eq_true.mp all

theorem Plain.quote (text : String) : Plain (quote text) := by
  intro character member
  rw [PythonUrl.quote, String.toList_ofList] at member
  rw [isPlain, (mem_quoteText member).1]
  rfl

theorem Plain.urlencode (pairs : List (String × String)) : Plain (urlencode pairs) := by
  intro character member
  rw [PythonUrl.urlencode, String.toList_ofList] at member
  rcases mem_of_mem_intercalate member with separator | ⟨piece, inside, member⟩
  · rw [List.mem_singleton.mp separator]
    rfl
  · obtain ⟨pair, -, rfl⟩ := List.mem_map.mp inside
    rw [quotePair, List.mem_append, List.mem_cons] at member
    rcases member with member | rfl | member
    · rw [isPlain, (mem_quoteText member).1]
      rfl
    · rfl
    · rw [isPlain, (mem_quoteText member).1]
      rfl

theorem templatePath_plain (providerId serviceId : String) :
    Plain (templatePath (quote providerId) (quote serviceId)) := by
  unfold templatePath
  exact ((((Plain.of_all (by decide +kernel)).append (.quote _)).append
    (.of_all (by decide +kernel))).append (.quote _)).append (.of_all (by decide +kernel))

theorem signedQuery_plain (params : List (String × String)) (signature : Signature) :
    Plain (signedQuery params signature) := by
  unfold signedQuery
  exact ((((Plain.urlencode params).append (.of_all (by decide +kernel))).append (.quote _)).append
    (.of_all (by decide +kernel))).append (.quote _)

theorem toList_pieces (base providers providerId services serviceId apply query keyName key sigName
    sig : String) :
    (base ++ providers ++ providerId ++ services ++ serviceId ++ (apply ++ "?") ++ query ++ keyName ++
      key ++ sigName ++ sig).toList =
    base.toList ++ ((providers ++ providerId ++ services ++ serviceId ++ apply).toList ++
      '?' :: (query ++ keyName ++ key ++ sigName ++ sig).toList) := by
  simp

theorem applyUrl_eq (urlSyncUx providerId serviceId : String) (params : List (String × String))
    (signature : Signature) :
    (applyUrl urlSyncUx providerId serviceId (canonicalQuery params) signature).toList =
      (rstripOf '/' urlSyncUx).toList ++
        ((templatePath (quote providerId) (quote serviceId)).toList ++
          '?' :: (signedQuery params signature).toList) := by
  have mark : "/apply?" = "/apply" ++ "?" := by decide
  unfold applyUrl templatePath signedQuery
  rw [mark]
  exact toList_pieces ..

theorem not_mem_of_plain {text : String} (plain : Plain text) {character : Char}
    (other : isPlain character = false) : character ∉ text.toList := fun member =>
  Bool.false_ne_true (other.symm.trans (plain character member))

theorem templatePath_head (providerId serviceId : String) :
    (templatePath providerId serviceId).toList.head? = some '/' := by
  have starts : "/v2/domainTemplates/providers/".toList.head? = some '/' := by decide +kernel
  unfold templatePath
  rw [String.toList_append, String.toList_append, String.toList_append, String.toList_append,
    List.head?_append, List.head?_append, List.head?_append, List.head?_append, starts]
  rfl

theorem signedQuery_eq (params : List (String × String)) (signature : Signature) :
    signedQuery params signature =
      urlencode params ++ "&" ++ urlencode [("key", signature.key), ("sig", signature.sig)] := by
  have key : quoteText "key" = ['k', 'e', 'y'] := by decide +kernel
  have sig : quoteText "sig" = ['s', 'i', 'g'] := by decide +kernel
  refine String.toList_injective ?_
  simp [signedQuery, canonicalQuery, urlencode, quotePair, quote, key, sig]

theorem parseQsl_signedQuery (params : List (String × String)) (signature : Signature) :
    parseQsl (signedQuery params signature) =
      params ++ [("key", signature.key), ("sig", signature.sig)] := by
  rw [signedQuery_eq, parseQsl_append, parseQsl_urlencode, parseQsl_urlencode]

/-! ## Identifiers -/

theorem lt_of_isIdentifierCharacter {character : Char}
    (identifier : isIdentifierCharacter character = true) : character.toNat < 128 := by
  have code : character.val.toNat = character.toNat := rfl
  simp only [isIdentifierCharacter, Char.isAlphanum, isAlpha_iff, Char.isDigit, Bool.or_eq_true,
    Bool.and_eq_true, decide_eq_true_eq, ge_iff_le, UInt32.le_iff_toNat_le, beq_iff_eq,
    code] at identifier
  rcases identifier with (((((upper | lower) | digit) | rfl) | rfl) | rfl)
  · exact lt_of_le_of_lt upper.2 (by decide)
  · exact lt_of_le_of_lt lower.2 (by decide)
  · exact lt_of_le_of_lt digit.2 (by decide)
  · decide
  · decide
  · decide

theorem quoteByte_identifier : ∀ code < 128, isIdentifierCharacter (Char.ofNat code) = true →
    quoteByte (UInt8.ofNat code) = [Char.ofNat code] := by
  decide +kernel

theorem quote_of_identifier {text : String}
    (plain : ∀ character ∈ text.toList, isIdentifierCharacter character = true) :
    quote text = text := by
  have every (characters : List Char)
      (plain : ∀ character ∈ characters, isIdentifierCharacter character = true) :
      (characters.flatMap String.utf8EncodeChar).flatMap quoteByte = characters := by
    induction characters with
    | nil => rfl
    | cons first rest ih =>
        have here := plain first List.mem_cons_self
        have small := lt_of_isIdentifierCharacter here
        have written := quoteByte_identifier first.toNat small
        rw [Char.ofNat_toNat] at written
        rw [List.flatMap_cons, List.flatMap_append, encodeChar_of_ascii (decide_eq_true small),
          List.flatMap_singleton, written here,
          ih fun character member => plain character (List.mem_cons_of_mem _ member)]
        rfl
  rw [quote, quoteText, encodeUtf8, every _ plain, String.ofList_toList]

theorem quote_identifier_iff {text : String} (identifier : isIdentifier text = true) :
    quote text = text ↔ '\n' ∉ text.toList := by
  constructor
  · intro same member
    rw [← same] at member
    exact absurd (Plain.quote text _ member) (by decide)
  · intro plain
    refine quote_of_identifier fun character member => ?_
    unfold isIdentifier at identifier
    rw [Bool.or_eq_true] at identifier
    rcases identifier with body | line
    · simp only [isIdentifierBody, Bool.and_eq_true, List.all_eq_true] at body
      exact body.1.1.2 character member
    · rw [Bool.and_eq_true, beq_iff_eq] at line
      exact absurd (List.mem_of_getLast? line.1) plain

/-! ## The signed URL -/

section Signed

variable {name netloc tail : List Char}

variable (name netloc) in
theorem assemble_plain (noMark : '?' ∉ tail) (noHash : '#' ∉ tail) :
    (assemble name netloc tail).path = String.ofList tail := by
  unfold assemble
  rw [breakAt_of_not_mem noHash, breakAt_of_not_mem noMark]

variable (name netloc) in
/-- The parts of a URL with a query and without a fragment. -/
theorem assemble_query {path query : List Char} (noMark : '?' ∉ path) (noHash : '#' ∉ path)
    (plain : '#' ∉ query) :
    (assemble name netloc (path ++ '?' :: query)).path = String.ofList path ∧
    (assemble name netloc (path ++ '?' :: query)).query = String.ofList query ∧
    (assemble name netloc (path ++ '?' :: query)).fragment = "" := by
  have absent : '#' ∉ path ++ '?' :: query := by
    rw [List.mem_append, List.mem_cons]
    rintro (inside | same | inside)
    · exact noHash inside
    · cases same
    · exact plain inside
  unfold assemble
  rw [breakAt_of_not_mem absent]
  simp only
  rw [breakAt_append noMark]
  simp

theorem hostname_congr {first second : SplitResult} (same : first.netloc = second.netloc) :
    first.hostname tables = second.hostname tables := by
  unfold SplitResult.hostname SplitResult.hostinfo
  rw [same]

/-- The tail of an accepted base: a path, and marks that nothing follows. -/
theorem exists_path (fragment : (breakAt '#' tail).2 = [])
    (query : (breakAt '?' (breakAt '#' tail).1).2 = []) :
    ∃ path, '?' ∉ path ∧ '#' ∉ path ∧ (tail = path ∨ tail = path ++ ['?'] ∨
      tail = path ++ ['#'] ∨ tail = path ++ ['?', '#']) := by
  obtain ⟨front, after, cut⟩ : ∃ front after, breakAt '#' tail = (front, after) := ⟨_, _, rfl⟩
  obtain ⟨path, rest, cut'⟩ : ∃ path rest, breakAt '?' front = (path, rest) := ⟨_, _, rfl⟩
  rw [cut] at fragment query
  rw [cut'] at query
  subst fragment query
  obtain ⟨noHash, whole⟩ := breakAt_eq_nil cut
  obtain ⟨noMark, front⟩ := breakAt_eq_nil cut'
  refine ⟨path, noMark, fun inside => noHash ?_, ?_⟩
  · rcases front with rfl | rfl
    · exact inside
    · exact List.mem_append_left _ inside
  · rcases front with rfl | rfl
    · rcases whole with rfl | rfl
      · exact .inl rfl
      · exact .inr (.inr (.inl rfl))
    · rcases whole with rfl | rfl
      · exact .inr (.inl rfl)
      · exact .inr (.inr (.inr (by simp)))

variable {providerId serviceId : String} {params : List (String × String)} {signature : Signature}

variable (providerId serviceId params signature) in
/-- The URL that is built over a base. -/
theorem applyUrl_base {base : String} (base_ : Base tables base.toList name netloc tail)
    (stripped : rstripOf '/' base = base) :
    urlsplit tables (applyUrl base providerId serviceId (canonicalQuery params) signature) =
      some (assemble name netloc (tail ++
        ((templatePath (quote providerId) (quote serviceId)).toList ++
          '?' :: (signedQuery params signature).toList))) := by
  refine Base.urlsplit ?_
  rw [applyUrl_eq, stripped]
  refine base_.append ?_ fun character member => ?_
  · rw [List.head?_append, templatePath_head]
    rfl
  · rw [List.mem_append, List.mem_cons] at member
    rcases member with member | rfl | member
    · exact isRemoved_of_isPlain (templatePath_plain _ _ character member)
    · rfl
    · exact isRemoved_of_isPlain (signedQuery_plain _ _ character member)

theorem path_append (path providers providerId services serviceId apply : String) :
    path ++ providers ++ providerId ++ services ++ serviceId ++ apply =
      path ++ (providers ++ providerId ++ services ++ serviceId ++ apply) := by
  simp only [String.append_assoc]

theorem append_left_cancel {first second third : String} (same : first ++ second = first ++ third) :
    second = third := by
  have lists := congrArg String.toList same
  rw [String.toList_append, String.toList_append] at lists
  exact String.toList_injective (List.append_cancel_left lists)

/-- Over a base without marks the URL is the signed one, up to how the identifiers are
written. -/
theorem isSigned_iff_of_plain {base : String} (base_ : Base tables base.toList name netloc tail)
    (stripped : rstripOf '/' base = base) (noMark : '?' ∉ tail) (noHash : '#' ∉ tail) :
    IsSigned tables base providerId serviceId params signature
      (applyUrl base providerId serviceId (canonicalQuery params) signature) ↔
    templatePath (quote providerId) (quote serviceId) = templatePath providerId serviceId := by
  have url := applyUrl_base providerId serviceId params signature base_ stripped
  have apart : '?' ∉ tail ++ (templatePath (quote providerId) (quote serviceId)).toList ∧
      '#' ∉ tail ++ (templatePath (quote providerId) (quote serviceId)).toList := by
    have plain := templatePath_plain providerId serviceId
    rw [List.mem_append, List.mem_append, not_or, not_or]
    exact ⟨⟨noMark, not_mem_of_plain plain rfl⟩, noHash, not_mem_of_plain plain rfl⟩
  obtain ⟨path, query, fragment⟩ := assemble_query name netloc apart.1 apart.2
    (not_mem_of_plain (signedQuery_plain params signature) rfl)
  rw [← List.append_assoc] at url
  have basePath := assemble_plain name netloc noMark noHash
  have whole : (assemble name netloc (tail ++
      (templatePath (quote providerId) (quote serviceId)).toList ++
        '?' :: (signedQuery params signature).toList)).path =
      String.ofList tail ++ templatePath (quote providerId) (quote serviceId) := by
    rw [path, String.ofList_append, String.ofList_toList]
  constructor
  · rintro ⟨parts, found, split, split', -, -, -, same, -⟩
    cases url.symm.trans split
    cases base_.urlsplit.symm.trans split'
    rw [whole, basePath, path_append] at same
    exact append_left_cancel same
  · intro same
    refine ⟨_, _, url, base_.urlsplit, ?_, fragment, hostname_congr rfl, ?_, ?_,
      parseQsl_urlencode params, ?_⟩
    · exact congrArg String.ofList base_.scheme
    · rw [whole, basePath, path_append, same]
      rfl
    · rw [query, String.ofList_toList]
      rfl
    · rw [query, String.ofList_toList, parseQsl_signedQuery]

theorem not_isSigned_of_marked {base : String} {path marks : List Char}
    (base_ : Base tables base.toList name netloc (path ++ marks))
    (stripped : rstripOf '/' base = base) (noMark : '?' ∉ path) (noHash : '#' ∉ path)
    (marked : marks = ['?'] ∨ marks = ['#'] ∨ marks = ['?', '#']) :
    ¬ IsSigned tables base providerId serviceId params signature
      (applyUrl base providerId serviceId (canonicalQuery params) signature) := by
  have url := applyUrl_base providerId serviceId params signature base_ stripped
  have plain := templatePath_plain providerId serviceId
  have query := signedQuery_plain params signature
  have fragmented {front : List Char} (absent : '#' ∉ front)
      (marked : path ++ marks = front ++ ['#']) :
      ¬ IsSigned tables base providerId serviceId params signature
        (applyUrl base providerId serviceId (canonicalQuery params) signature) := by
    rintro ⟨parts, found, split, -, -, fragment, -⟩
    rw [url, marked, List.append_assoc, List.singleton_append] at split
    cases split
    rw [assemble] at fragment
    simp only [breakAt_append absent] at fragment
    have none := String.ofList_injective fragment
    simp at none
  rcases marked with rfl | rfl | rfl
  · -- The template's path ends up in the query.
    rintro ⟨parts, found, split, split', -, -, -, same, -⟩
    have noHash' : '#' ∉ (templatePath (quote providerId) (quote serviceId)).toList ++
        '?' :: (signedQuery params signature).toList := by
      rw [List.mem_append, List.mem_cons, not_or, not_or]
      exact ⟨not_mem_of_plain plain rfl, by decide, not_mem_of_plain query rfl⟩
    rw [List.append_assoc, List.singleton_append] at url
    cases url.symm.trans split
    cases base_.urlsplit.symm.trans split'
    rw [(assemble_query name netloc noMark noHash noHash').1,
      (assemble_query name netloc noMark noHash List.not_mem_nil).1, path_append] at same
    have some_ := templatePath_head providerId serviceId
    have none : "" = templatePath providerId serviceId :=
      append_left_cancel ((String.append_empty).trans same)
    rw [← none] at some_
    cases some_
  · exact fragmented noHash rfl
  · have absent : '#' ∉ path ++ ['?'] := by simpa using noHash
    exact fragmented absent (by simp)

theorem mem_templatePath {character : Char}
    (member : character ∈ providerId.toList ∨ character ∈ serviceId.toList) :
    character ∈ (templatePath providerId serviceId).toList := by
  unfold templatePath
  rw [String.toList_append, String.toList_append, String.toList_append, String.toList_append]
  simp only [List.mem_append]
  rcases member with inside | inside
  · exact .inl (.inl (.inl (.inr inside)))
  · exact .inl (.inr inside)

/-- Quoting leaves an identifier alone unless it ends with a line feed. -/
theorem templatePath_quote_iff (provider : isIdentifier providerId = true)
    (service : isIdentifier serviceId = true) :
    templatePath (quote providerId) (quote serviceId) = templatePath providerId serviceId ↔
      '\n' ∉ providerId.toList ∧ '\n' ∉ serviceId.toList := by
  constructor
  · intro same
    have absent := not_mem_of_plain (templatePath_plain providerId serviceId) not_plain_marks.2.2
    rw [same] at absent
    exact ⟨fun inside => absent (mem_templatePath (.inl inside)),
      fun inside => absent (mem_templatePath (.inr inside))⟩
  · rintro ⟨first, second⟩
    rw [(quote_identifier_iff provider).mpr first, (quote_identifier_iff service).mpr second]

/-- A mark of a base is in its tail. -/
theorem Base.mem_iff {base : List Char} (base_ : Base tables base name netloc tail)
    {mark : Char} (marks : mark = '?' ∨ mark = '#') : mark ∈ base ↔ mark ∈ tail := by
  have scheme : mark ∉ name := by
    intro inside
    have character := base_.located.characters mark inside
    rcases marks with rfl | rfl <;> cases character
  have host : mark ∉ netloc := by
    intro inside
    have character := base_.located.netloc mark inside
    rcases marks with rfl | rfl <;> cases character
  rw [base_.located.text]
  rcases marks with rfl | rfl <;> simp [scheme, host]

end Signed

theorem httpsUrl_some {value : Option Value} (accepted : httpsUrl tables value = some ux) :
    ∃ text, httpsUrlText tables text = some ux := by
  unfold httpsUrl at accepted
  split at accepted
  next text => exact ⟨text, accepted⟩
  next => cases accepted

theorem parseSettings_urlSyncUx {body : String} {settings : Settings}
    (parsed : parseSettings tables body = .ok settings) (offered : settings.urlSyncUx = some ux) :
    ∃ text, httpsUrlText tables text = some ux := by
  unfold parseSettings at parsed
  split at parsed
  next => cases parsed
  next =>
    split at parsed
    next =>
      cases parsed
      exact httpsUrl_some offered
    next => cases parsed
  next => cases parsed

/-- For every accepted settings document, identifiers, parameters and signature: the apply URL
is the signed one exactly when the provider's URL ends without the mark of an empty query or
fragment and neither identifier ends with a line feed. -/
theorem apply_url_iff {body : String} {settings : Settings}
    (parsed : parseSettings tables body = .ok settings) (offered : settings.urlSyncUx = some ux)
    {providerId serviceId : String} (provider : isIdentifier providerId = true)
    (service : isIdentifier serviceId = true) (params : List (String × String))
    (signature : Signature) :
    IsSigned tables ux providerId serviceId params signature
      (applyUrl ux providerId serviceId (canonicalQuery params) signature) ↔
    '?' ∉ ux.toList ∧ '#' ∉ ux.toList ∧ '\n' ∉ providerId.toList ∧ '\n' ∉ serviceId.toList := by
  obtain ⟨text, accepted⟩ := parseSettings_urlSyncUx parsed offered
  obtain ⟨name, netloc, tail, base, fragment, query, rfl⟩ := httpsUrlText_some accepted
  have stripped : rstripOf '/' (rstripOf '/' (strip text)) = rstripOf '/' (strip text) := by
    rw [rstripOf, rstripOf, String.toList_ofList, List.rdropWhile_idempotent]
  have base : Base tables (rstripOf '/' (strip text)).toList name netloc
      (tail.rdropWhile (· == '/')) := by
    rw [rstripOf, String.toList_ofList]
    exact base.rstrip
  have marked {path marks : List Char} (noMark : '?' ∉ path) (noHash : '#' ∉ path)
      (kinds : marks = ['?'] ∨ marks = ['#'] ∨ marks = ['?', '#']) (whole : tail = path ++ marks) :
      IsSigned tables (rstripOf '/' (strip text)) providerId serviceId params signature
        (applyUrl (rstripOf '/' (strip text)) providerId serviceId (canonicalQuery params)
          signature) ↔
      '?' ∉ (rstripOf '/' (strip text)).toList ∧ '#' ∉ (rstripOf '/' (strip text)).toList ∧
        '\n' ∉ providerId.toList ∧ '\n' ∉ serviceId.toList := by
    have same : tail.rdropWhile (· == '/') = path ++ marks := by
      have ends : ∃ before character, tail = before ++ [character] ∧ (character == '/') = false := by
        rw [whole]
        rcases kinds with rfl | rfl | rfl
        · exact ⟨path, '?', rfl, rfl⟩
        · exact ⟨path, '#', rfl, rfl⟩
        · exact ⟨path ++ ['?'], '#', by simp, rfl⟩
      have kept := rdropWhile_append [] ends
      rw [List.append_nil, List.rdropWhile_nil, List.append_nil] at kept
      rw [kept, whole]
    rw [same] at base
    refine iff_of_false (not_isSigned_of_marked base stripped noMark noHash kinds) ?_
    rintro ⟨mark, hash, -⟩
    rw [base.mem_iff (.inl rfl)] at mark
    rw [base.mem_iff (.inr rfl)] at hash
    rcases kinds with rfl | rfl | rfl <;> simp at mark hash
  obtain ⟨path, noMark, noHash, rfl | whole | whole | whole⟩ := exists_path fragment query
  · have subset := (List.rdropWhile_prefix (· == '/') tail).subset
    have mark : '?' ∉ tail.rdropWhile (· == '/') := fun inside => noMark (subset inside)
    have hash : '#' ∉ tail.rdropWhile (· == '/') := fun inside => noHash (subset inside)
    rw [isSigned_iff_of_plain base stripped mark hash, templatePath_quote_iff provider service,
      base.mem_iff (.inl rfl), base.mem_iff (.inr rfl)]
    exact ⟨fun plain => ⟨mark, hash, plain⟩, fun plain => plain.2.2⟩
  · exact marked noMark noHash (.inl rfl) whole
  · exact marked noMark noHash (.inr (.inl rfl)) whole
  · exact marked noMark noHash (.inr (.inr rfl)) whole

/-- Tables for ASCII host names. -/
def asciiTables : UnicodeTables where
  nfkc := id
  lower := lower

/-- The settings of a provider whose URL is `syncUx`. -/
def sampleBody (syncUx : String) : String :=
  "\x7b\"providerId\":\"p\",\"urlAPI\":\"https://a.b\",\"urlSyncUX\":\"" ++ syncUx ++ "\"\x7d"

def sampleSettings (syncUx : String) : Settings where
  providerId := "p"
  providerName := none
  providerDisplayName := none
  urlApi := "https://a.b"
  urlSyncUx := some syncUx

theorem sample_url_signed :
    parseSettings asciiTables (sampleBody "https://p.q/r/") = .ok (sampleSettings "https://p.q/r") ∧
    IsSigned asciiTables "https://p.q/r" "acme" "web" [("domain", "a b")] ⟨"_k", "s/1="⟩
      (applyUrl "https://p.q/r" "acme" "web" (canonicalQuery [("domain", "a b")])
        ⟨"_k", "s/1="⟩) := by
  have parsed : parseSettings asciiTables (sampleBody "https://p.q/r/") =
      .ok (sampleSettings "https://p.q/r") := by decide +kernel
  exact ⟨parsed, (apply_url_iff parsed rfl (by decide +kernel) (by decide +kernel) _ _).mpr
    (by decide +kernel)⟩

/-- A provider's URL that ends with a question mark takes the template's path for its query. -/
theorem marked_url_not_signed :
    parseSettings asciiTables (sampleBody "https://p.q/r?") = .ok (sampleSettings "https://p.q/r?") ∧
    ¬ IsSigned asciiTables "https://p.q/r?" "acme" "web" [("domain", "a b")] ⟨"_k", "s/1="⟩
      (applyUrl "https://p.q/r?" "acme" "web" (canonicalQuery [("domain", "a b")])
        ⟨"_k", "s/1="⟩) := by
  refine ⟨by decide +kernel, ?_⟩
  rintro ⟨parts, base, split, split', -, -, -, same, -⟩
  have path : (urlsplit asciiTables (applyUrl "https://p.q/r?" "acme" "web"
      (canonicalQuery [("domain", "a b")]) ⟨"_k", "s/1="⟩)).map SplitResult.path = some "/r" := by
    decide +kernel
  have path' : (urlsplit asciiTables "https://p.q/r?").map SplitResult.path = some "/r" := by
    decide +kernel
  rw [split, Option.map_some, Option.some.injEq] at path
  rw [split', Option.map_some, Option.some.injEq] at path'
  rw [path, path', path_append] at same
  revert same
  decide +kernel

end CustomDomain.ApplyUrl
