import CustomDomain.Base64
import CustomDomain.DomainService
import CustomDomain.DoubleRounding
import CustomDomain.EdgeSettings
import CustomDomain.JsonText

/-!
# Assertions

The token that binds a proxied request to an application, a domain, a workspace
reference and a hostname: `sign` of the edge, `verify` of the service and
`verify_assertion` of the Python package for origins.  HMAC-SHA256 is any function
of the key and the text.
-/

namespace CustomDomain

open PythonText JsonText

/-- Why an assertion is refused. -/
inductive Refusal where
  | missing
  | malformed
  | unknownKey
  | badSignature
  | notYetValid
  | expired
  | wrongApplication
  | wrongHostname
  deriving DecidableEq, Repr

structure AssertionInvalid where
  code : Refusal
  message : String
  deriving DecidableEq, Repr

structure Assertion where
  applicationId : String
  domainId : String
  reference : String
  hostname : String
  issuedAt : Int
  expiresAt : Int
  requestId : String
  keyId : String
  deriving DecidableEq, Repr

/-- `Assertion.to_payload`. -/
def Assertion.toPayload (assertion : Assertion) : List (String × Scalar) :=
  [("app", .text assertion.applicationId), ("dom", .text assertion.domainId),
    ("ref", .text assertion.reference), ("host", .text assertion.hostname),
    ("iat", .integer assertion.issuedAt), ("exp", .integer assertion.expiresAt),
    ("rid", .text assertion.requestId)]

/-- `_b64`. -/
def b64 (data : List UInt8) : String := rstripOf '=' (String.ofList (Base64.urlsafeEncode data))

/-- `_unb64`, or `none` where it raises. -/
def unb64 (text : String) : Option (List UInt8) :=
  Base64.urlsafeDecode (text.toList ++ Base64.padding text.toList.length)

/-- `json.dumps` writes the two times. -/
def Assertion.Writable (assertion : Assertion) : Prop :=
  (Scalar.integer assertion.issuedAt).Fits ∧ (Scalar.integer assertion.expiresAt).Fits

instance : DecidablePred Assertion.Writable := fun _ => inferInstanceAs (Decidable (_ ∧ _))

/-- The text that the signature covers. -/
def signingInput (keyId payload : String) : String := "v1" ++ "." ++ keyId ++ "." ++ payload

/-- The payload of an assertion, encoded. -/
def Assertion.payload (assertion : Assertion) : String :=
  b64 (encodeUtf8 (dumps assertion.toPayload))

/-- What Python makes of texts and of JSON values that the edge does not write. -/
structure PythonRuntime where
  /-- `str` of a value that is no string. -/
  str : Value → String
  /-- `int` of a text. -/
  int : String → Option Int
  /-- The text of bytes that `json.loads` takes for UTF-16 or UTF-32. -/
  wideText : List UInt8 → Option String
  /-- `json.loads` raises on a text of the grammar: an integer has too many digits, or lists and
  objects are nested too deep. -/
  exceeds : String → Bool
  /-- `repr` of a text. -/
  repr : String → String
  /-- `str.lower`. -/
  lower : String → String
  lower_ascii : ∀ text, (∀ character ∈ text.toList, character.toNat < 128) →
    lower text = PythonText.lower text
  /-- Nothing is nested in what `json.dumps` writes of texts and integers. -/
  exceeds_dumpsInOrder : ∀ fields : List (String × Scalar), (∀ field ∈ fields, field.2.Fits) →
    exceeds (dumpsInOrder fields) = false

section Python

variable (hmac : List UInt8 → List UInt8 → List UInt8) (runtime : PythonRuntime)

/-- `_mac`. -/
def mac (key : List UInt8) (input : String) : List UInt8 := hmac key (encodeUtf8 input)

/-- The assertion that `sign` makes at the time `issued`. -/
def issue (keyId applicationId domainId reference hostname requestId : String)
    (issued ttl : Int) : Assertion where
  applicationId := applicationId
  domainId := domainId
  reference := reference
  hostname := hostname
  issuedAt := issued
  expiresAt := issued + ttl
  requestId := requestId
  keyId := keyId

/-- The signature of an assertion. -/
def Assertion.signature (key : List UInt8) (assertion : Assertion) : String :=
  b64 (mac hmac key (signingInput assertion.keyId assertion.payload))

/-- The token of an assertion. -/
def Assertion.token (key : List UInt8) (assertion : Assertion) : String :=
  signingInput assertion.keyId assertion.payload ++ "." ++ assertion.signature hmac key

/-- `sign`, at the time `issued`, or `none` where `json.dumps` raises. -/
def sign (keyId : String) (key : List UInt8)
    (applicationId domainId reference hostname requestId : String) (issued ttl : Int) :
    Option String :=
  let assertion := issue keyId applicationId domainId reference hostname requestId issued ttl
  if assertion.Writable then some (assertion.token hmac key) else none

/-- The text of a JSON document: `json.detect_encoding`, then the decoder. -/
def jsonText (data : List UInt8) : Option String :=
  match data with
  | 0xfe :: 0xff :: _ => runtime.wideText data
  | 0xff :: 0xfe :: _ => runtime.wideText data
  | 0xef :: 0xbb :: 0xbf :: rest => decodeUtf8 rest
  | first :: second :: rest =>
      if rest.length ≠ 1 ∧ (first = 0 ∨ second = 0) then runtime.wideText data
      else decodeUtf8 data
  | _ => decodeUtf8 data

/-- `json.loads`. -/
def loads (data : List UInt8) : Option Value :=
  (jsonText runtime data).bind fun text => if runtime.exceeds text then none else read text

def pythonStr : Value → String
  | .str text => text
  | other => runtime.str other

/-- `int`, or `none` where it raises. -/
def pythonInt : Value → Option Int
  | .number true value => some (DoubleRounding.truncate value)
  | .number false value =>
      if DoubleRounding.isFinite value then
        some (DoubleRounding.truncate (DoubleRounding.toDouble value))
      else none
  | .bool value => some (if value then 1 else 0)
  | .str text => runtime.int text
  | _ => none

/-- The assertion of a payload, or `none` where a field is missing or wrong. -/
def payloadAssertion (keyId : String) : Value → Option Assertion
  | .obj fields => do
      let app ← member? "app" fields
      let dom ← member? "dom" fields
      let ref ← member? "ref" fields
      let host ← member? "host" fields
      let iat ← member? "iat" fields
      let issuedAt ← pythonInt runtime iat
      let exp ← member? "exp" fields
      let expiresAt ← pythonInt runtime exp
      let rid ← member? "rid" fields
      return {
        applicationId := pythonStr runtime app
        domainId := pythonStr runtime dom
        reference := pythonStr runtime ref
        hostname := pythonStr runtime host
        issuedAt := issuedAt
        expiresAt := expiresAt
        requestId := pythonStr runtime rid
        keyId := keyId }
  | _ => none

/-- The key id, the payload and the signature of a token. -/
def tokenParts : Option String → Except AssertionInvalid (String × String × String)
  | none => .error ⟨.missing, "No assertion header"⟩
  | some token =>
      if token = "" then .error ⟨.missing, "No assertion header"⟩
      else
        match split '.' token with
        | ["v1", keyId, payload, signature] => .ok (keyId, payload, signature)
        | _ => .error ⟨.malformed, "Assertion is not a v1 token"⟩

/-- The assertion of a payload, if the signature is one under the key that its id
names. -/
def openParts (key? : String → Option (List UInt8)) (keyId payload signature : String) :
    Except AssertionInvalid Assertion :=
  match key? keyId with
  | none => .error ⟨.unknownKey, "Assertion signed with unknown key id " ++ runtime.repr keyId⟩
  | some key =>
      match unb64 signature with
      | none => .error ⟨.malformed, "Assertion signature is not base64url"⟩
      | some given =>
          if mac hmac key (signingInput keyId payload) ≠ given then
            .error ⟨.badSignature, "Assertion signature does not verify"⟩
          else
            match ((unb64 payload).bind (loads runtime)).bind (payloadAssertion runtime keyId) with
            | none => .error ⟨.malformed, "Assertion payload is not valid"⟩
            | some assertion => .ok assertion

/-- The part that `verify` and `verify_assertion` share: the signature and the
payload. -/
def openToken (token : Option String) (key? : String → Option (List UInt8)) :
    Except AssertionInvalid Assertion :=
  match tokenParts token with
  | .error refusal => .error refusal
  | .ok (keyId, payload, signature) => openParts hmac runtime key? keyId payload signature

/-- The checks of the age, the application and the hostname. -/
def checkClaims (expectedApplicationId expectedHostname : Option String) (now skew : Int)
    (assertion : Assertion) : Except AssertionInvalid Assertion :=
  if assertion.issuedAt > now + skew then
    .error ⟨.notYetValid, "Assertion issued in the future"⟩
  else if assertion.expiresAt + skew < now then .error ⟨.expired, "Assertion has expired"⟩
  else if expectedApplicationId.any (· ≠ assertion.applicationId) then
    .error ⟨.wrongApplication, "Assertion is for another application"⟩
  else if expectedHostname.any (· ≠ assertion.hostname) then
    .error ⟨.wrongHostname, "Assertion is for another hostname"⟩
  else .ok assertion

/-- `verify` of the service, at the time `now`. -/
def verify (token : Option String) (keys : List (String × List UInt8))
    (expectedApplicationId expectedHostname : Option String) (now skew : Int) :
    Except AssertionInvalid Assertion := do
  let assertion ← openToken hmac runtime token fun keyId => keys.lookup keyId
  checkClaims expectedApplicationId expectedHostname now skew assertion

/-- A secret as an origin gives it. -/
inductive Secret where
  | text (value : String)
  | bytes (value : List UInt8)

def Secret.key : Secret → List UInt8
  | .text value => encodeUtf8 value
  | .bytes value => value

/-- `verify_assertion` of the Python package, at the time `now`. -/
def verifyAssertion (token : Option String) (keys : List (String × Secret))
    (expectedApplicationId : String) (expectedHostname : Option String) (now skew : Int) :
    Except AssertionInvalid Assertion := do
  let assertion ← openToken hmac runtime token fun keyId => (keys.lookup keyId).map Secret.key
  checkClaims (some expectedApplicationId)
    (expectedHostname.map fun name => rstripOf '.' (runtime.lower name)) now skew assertion

end Python

/-! ## The encodings are undone -/

theorem rdropWhile_append_replicate (text : List Char) (count : Nat) (character : Char) :
    (text ++ List.replicate count character).rdropWhile (· == character) =
      text.rdropWhile (· == character) := by
  induction count with
  | zero => simp
  | succ count ih =>
      rw [List.replicate_succ', ← List.append_assoc, List.rdropWhile_concat_pos _ _ _ (by simp), ih]

theorem b64_eq (data : List UInt8) :
    b64 data = String.ofList ((Base64.encode data).map Base64.toUrlsafe) := by
  have pads : (Base64.padding (Base64.encode data).length).map Base64.toUrlsafe =
      Base64.padding (Base64.encode data).length := by
    simp [Base64.padding, Base64.toUrlsafe]
  rw [b64, rstripOf, Base64.urlsafeEncode, String.toList_ofList, List.map_append, pads]
  congr 1
  rw [Base64.padding, rdropWhile_append_replicate, List.rdropWhile_eq_self_iff]
  intro nonempty
  simpa using (Base64.encode_facts _ (List.getLast_mem nonempty)).2.2

theorem unb64_b64 (data : List UInt8) : unb64 (b64 data) = some data := by
  rw [unb64, b64_eq, String.toList_ofList]
  exact Base64.urlsafeDecode_encode data

theorem dot_not_mem_b64 (data : List UInt8) : '.' ∉ (b64 data).toList := by
  rw [b64_eq, String.toList_ofList]
  intro dot
  exact (Base64.encode_facts _ dot).2.1 rfl

/-- The parts of a token; the key id may have dots of its own. -/
theorem split_token {keyId payload signature : String} (noDot : '.' ∉ payload.toList)
    (noDot' : '.' ∉ signature.toList) :
    split '.' (signingInput keyId payload ++ "." ++ signature) =
      "v1" :: (split '.' keyId ++ [payload, signature]) := by
  have text : (signingInput keyId payload ++ "." ++ signature).toList =
      "v1".toList ++ '.' :: (keyId.toList ++ '.' :: (payload.toList ++ '.' :: signature.toList)) := by
    simp [signingInput]
  rw [split, text, List.splitOn_append_cons_self_of_not_mem (by decide),
    List.splitOn_append_cons_self, List.splitOn_append_cons_self,
    List.splitOn_eq_singleton noDot, List.splitOn_eq_singleton noDot']
  simp [split]

/-- What `json.dumps` writes is UTF-8 to `json.loads`. -/
theorem loads_dumpsInOrder (runtime : PythonRuntime) {fields : List (String × Scalar)}
    (some_ : fields ≠ []) (fit : ∀ field ∈ fields, field.2.Fits) :
    loads runtime (encodeUtf8 (dumpsInOrder fields)) = read (dumpsInOrder fields) := by
  have starts : ∃ rest, encodeUtf8 (dumpsInOrder fields) = 0x7b :: 0x22 :: rest := by
    obtain ⟨rest, text⟩ := dumpsInOrder_starts some_
    refine ⟨rest.flatMap String.utf8EncodeChar, ?_⟩
    rw [encodeUtf8, text]
    rfl
  obtain ⟨rest, bytes⟩ := starts
  have text : jsonText runtime (encodeUtf8 (dumpsInOrder fields)) = some (dumpsInOrder fields) := by
    rw [← decodeUtf8_encodeUtf8 (dumpsInOrder fields), bytes, jsonText]
    · simp
    all_goals simp
  rw [loads, text, Option.bind_some, runtime.exceeds_dumpsInOrder fields fit]
  rfl

theorem loads_dumps (runtime : PythonRuntime) {fields : List (String × Scalar)}
    (some_ : fields ≠ []) (fit : ∀ field ∈ fields, field.2.Fits) :
    loads runtime (encodeUtf8 (dumps fields)) = read (dumps fields) := by
  rw [dumps_eq, loads_dumpsInOrder runtime (sorted_ne_nil some_) fun field member =>
    fit field ((List.mem_insertionSort _).mp member)]

theorem Assertion.Writable.fits {assertion : Assertion} (writable : assertion.Writable) :
    ∀ field ∈ assertion.toPayload, field.2.Fits := by
  obtain ⟨issued, expires⟩ := writable
  simp only [Assertion.toPayload, List.mem_cons, List.not_mem_nil, or_false, forall_eq_or_imp,
    forall_eq]
  exact ⟨trivial, trivial, trivial, trivial, issued, expires, trivial⟩

theorem sorted_toPayload (assertion : Assertion) :
    sorted assertion.toPayload =
      [("app", .text assertion.applicationId), ("dom", .text assertion.domainId),
        ("exp", .integer assertion.expiresAt), ("host", .text assertion.hostname),
        ("iat", .integer assertion.issuedAt), ("ref", .text assertion.reference),
        ("rid", .text assertion.requestId)] := by
  simp +decide [Assertion.toPayload, sorted, List.insertionSort, List.orderedInsert]

theorem payloadAssertion_read (runtime : PythonRuntime) (assertion : Assertion) :
    (read (dumps assertion.toPayload)).bind (payloadAssertion runtime assertion.keyId) =
      some assertion := by
  rw [read_dumps (by simp [Assertion.toPayload]), sorted_toPayload]
  simp [payloadAssertion, member?, List.lookup_cons, Scalar.read, pythonInt, pythonStr,
    DoubleRounding.truncate_int]

/-! ## Round trips -/

section RoundTrips

variable {hmac : List UInt8 → List UInt8 → List UInt8} {runtime : PythonRuntime}
  {key : List UInt8} {assertion : Assertion}

theorem token_ne_empty : assertion.token hmac key ≠ "" := by
  intro empty
  have starts := congrArg String.toList empty
  simp [Assertion.token, signingInput] at starts

/-- The parts of an assertion's token. -/
theorem split_assertion_token (hmac : List UInt8 → List UInt8 → List UInt8) (key : List UInt8)
    (assertion : Assertion) :
    split '.' (assertion.token hmac key) =
      "v1" :: (split '.' assertion.keyId ++ [assertion.payload, assertion.signature hmac key]) :=
  split_token (dot_not_mem_b64 _) (dot_not_mem_b64 _)

theorem tokenParts_token (noDot : '.' ∉ assertion.keyId.toList) :
    tokenParts (some (assertion.token hmac key)) =
      .ok (assertion.keyId, assertion.payload, assertion.signature hmac key) := by
  have parts := split_assertion_token hmac key assertion
  rw [split_of_none noDot] at parts
  simp [tokenParts, token_ne_empty, parts]

/-- A token with a key id that has no dot opens to its assertion. -/
theorem openToken_token {key? : String → Option (List UInt8)}
    (known : key? assertion.keyId = some key) (noDot : '.' ∉ assertion.keyId.toList)
    (writable : assertion.Writable) :
    openToken hmac runtime (some (assertion.token hmac key)) key? = .ok assertion := by
  have read : ((unb64 assertion.payload).bind (loads runtime)).bind
      (payloadAssertion runtime assertion.keyId) = some assertion := by
    rw [Assertion.payload, unb64_b64, Option.bind_some,
      loads_dumps runtime (by simp [Assertion.toPayload]) writable.fits]
    exact payloadAssertion_read runtime assertion
  have signed : unb64 (assertion.signature hmac key) =
      some (mac hmac key (signingInput assertion.keyId assertion.payload)) := unb64_b64 _
  simp [openToken, tokenParts_token noDot, openParts, known, signed, read]

/-- With a dot in the key id there are too many parts. -/
theorem openToken_dotted {key? : String → Option (List UInt8)}
    (dot : '.' ∈ assertion.keyId.toList) :
    openToken hmac runtime (some (assertion.token hmac key)) key? =
      .error ⟨.malformed, "Assertion is not a v1 token"⟩ := by
  have parts := split_assertion_token hmac key assertion
  obtain ⟨before, after, shape⟩ := List.append_of_mem dot
  obtain ⟨first, firsts, left⟩ := List.exists_cons_of_ne_nil (List.splitOn_ne_nil '.' before)
  obtain ⟨second, seconds, right⟩ := List.exists_cons_of_ne_nil (List.splitOn_ne_nil '.' after)
  rw [split, split, shape, List.splitOn_append_cons_self, left, right] at parts
  cases firsts with
  | nil => cases seconds <;> simp [openToken, tokenParts, token_ne_empty, split, parts]
  | cons third firsts => cases firsts <;> simp [openToken, tokenParts, token_ne_empty, split, parts]

/-- When the claims are as expected. -/
theorem checkClaims_ok {expectedApplicationId expectedHostname : Option String} {now skew : Int}
    {result : Assertion} :
    checkClaims expectedApplicationId expectedHostname now skew assertion = .ok result ↔
      (assertion.issuedAt - skew ≤ now ∧ now ≤ assertion.expiresAt + skew ∧
        (∀ expected ∈ expectedApplicationId, expected = assertion.applicationId) ∧
        ∀ expected ∈ expectedHostname, expected = assertion.hostname) ∧ result = assertion := by
  have differs : ∀ {expected : Option String} {found : String},
      expected.any (fun name => decide (name ≠ found)) = true ↔
        ¬ ∀ name ∈ expected, name = found := by
    intro expected found
    cases expected <;> simp
  unfold checkClaims
  split
  next early =>
    refine ⟨nofun, ?_⟩
    rintro ⟨⟨issued, -⟩, -⟩
    omega
  next issued =>
    split
    next late =>
      refine ⟨nofun, ?_⟩
      rintro ⟨⟨-, expires, -⟩, -⟩
      omega
    next expires =>
      split
      next application => exact ⟨nofun, fun facts => absurd facts.1.2.2.1 (differs.mp application)⟩
      next application =>
        split
        next hostname => exact ⟨nofun, fun facts => absurd facts.1.2.2.2 (differs.mp hostname)⟩
        next hostname =>
          rw [differs, not_not] at application hostname
          rw [Except.ok.injEq]
          constructor
          · rintro rfl
            exact ⟨⟨by omega, by omega, application, hostname⟩, rfl⟩
          · exact fun facts => facts.2.symm

/-- The settings are those of an accepted list of keys, with an active one. -/
structure Configured (spec : String) (settings : EdgeSettings) (keyId : String)
    (key : List UInt8) : Prop where
  keys : keyPairs spec = .ok settings.assertionKeys
  valid : settings.validate = .ok ()
  active : settings.activeKey = some (keyId, key)

/-- The assertion is in time, and for the application and the hostname that are
expected. -/
def Expected (assertion : Assertion) (applicationId hostname : Option String) (now skew : Int) :
    Prop :=
  assertion.issuedAt - skew ≤ now ∧ now ≤ assertion.expiresAt + skew ∧
    (∀ expected ∈ applicationId, expected = assertion.applicationId) ∧
    ∀ expected ∈ hostname, expected = assertion.hostname

/-- The token is accepted exactly in time and where application and hostname
match, by the service and by an origin with the same keys, and gives its assertion
back.  An origin compares the lowercase hostname without final dots, so that the
hostname itself matches. -/
structure RoundTrips (hmac : List UInt8 → List UInt8 → List UInt8) (runtime : PythonRuntime)
    (settings : EdgeSettings) (token : String) (assertion : Assertion) : Prop where
  service : ∀ applicationId hostname now skew result,
    verify hmac runtime (some token) settings.signingKeys applicationId hostname now skew =
        .ok result ↔
      Expected assertion applicationId hostname now skew ∧ result = assertion
  origin : ∀ keys : List (String × Secret),
    keys.map (fun entry => (entry.1, entry.2.key)) = settings.signingKeys →
    ∀ applicationId hostname now skew result,
      verifyAssertion hmac runtime (some token) keys applicationId hostname now skew =
          .ok result ↔
        Expected assertion (some applicationId)
          (hostname.map fun name => rstripOf '.' (runtime.lower name)) now skew ∧
        result = assertion
  itself : rstripOf '.' (runtime.lower assertion.hostname) = assertion.hostname

theorem lookup_map_key (keys : List (String × Secret)) (keyId : String) :
    (keys.lookup keyId).map Secret.key =
      (keys.map fun entry => (entry.1, entry.2.key)).lookup keyId := by
  induction keys with
  | nil => rfl
  | cons entry rest ih =>
      obtain ⟨name, secret⟩ := entry
      simp only [List.map_cons, List.lookup_cons]
      cases keyId == name with
      | true => rfl
      | false => exact ih

/-- The active key is found by its id. -/
theorem lookup_active {settings : EdgeSettings} {keyId : String}
    (active : settings.activeKey = some (keyId, key)) :
    settings.signingKeys.lookup keyId = some key := by
  rw [EdgeSettings.activeKey] at active
  cases found : settings.signingKeys with
  | nil => simp [found] at active
  | cons first rest =>
      rw [found, List.head?_cons, Option.some.injEq] at active
      simp [active]

theorem canonical_itself {tables : NameTables} (lawful : tables.Lawful) {raw host : String}
    {allowApex : Bool} (canonical : canonicalize tables raw allowApex = .ok host) :
    rstripOf '.' (runtime.lower host) = host := by
  have text := (canonicalize_ok canonical).1
  obtain ⟨-, allowed⟩ := canonicalText_encoded lawful text
  have facts := fun character member => hostCharacter_facts (allowed character member)
  have lowered : runtime.lower host = host := by
    rw [runtime.lower_ascii, lower_of_none fun character member => (facts character member).2.1]
    intro character member
    have code := hostCharacter_code (allowed character member)
    omega
  obtain ⟨-, -, -, -, -, valid, -⟩ := canonicalText_ok text
  have kept : host.toList.rdropWhile (· == '.') = host.toList := by
    rw [List.rdropWhile_eq_self_iff]
    intro nonempty isDot
    refine getLast?_of_validLabels valid ?_
    rw [List.getLast?_eq_getLast_of_ne_nil nonempty, eq_of_beq isDot]
  rw [lowered, rstripOf, kept, String.ofList_toList]

/-- A token with a dotted key id is not even accepted when it was just signed. -/
theorem not_roundTrips_of_dot {settings : EdgeSettings} (dot : '.' ∈ assertion.keyId.toList) :
    ¬ RoundTrips hmac runtime settings (assertion.token hmac key) assertion := by
  intro trips
  have accepted := (trips.service none none assertion.issuedAt
    |assertion.expiresAt - assertion.issuedAt| assertion).mpr
    ⟨⟨by have := abs_nonneg (assertion.expiresAt - assertion.issuedAt); omega,
      by have := neg_abs_le (assertion.expiresAt - assertion.issuedAt); omega, nofun, nofun⟩, rfl⟩
  rw [verify, openToken_dotted dot] at accepted
  cases accepted

theorem roundTrips_of_noDot {settings : EdgeSettings}
    (known : settings.signingKeys.lookup assertion.keyId = some key)
    (noDot : '.' ∉ assertion.keyId.toList) (writable : assertion.Writable)
    (itself : rstripOf '.' (runtime.lower assertion.hostname) = assertion.hostname) :
    RoundTrips hmac runtime settings (assertion.token hmac key) assertion where
  service applicationId hostname now skew result := by
    rw [verify, openToken_token known noDot writable]
    exact checkClaims_ok
  origin keys same applicationId hostname now skew result := by
    have found : (keys.lookup assertion.keyId).map Secret.key = some key := by
      rw [lookup_map_key, same, known]
    rw [verifyAssertion, openToken_token found noDot writable]
    exact checkClaims_ok
  itself := itself

theorem sign_eq_some {keyId app dom ref host rid token : String} {issued ttl : Int} :
    sign hmac keyId key app dom ref host rid issued ttl = some token ↔
      (issue keyId app dom ref host rid issued ttl).Writable ∧
        token = (issue keyId app dom ref host rid issued ttl).token hmac key := by
  rw [sign, Option.ite_none_right_eq_some, Option.some.injEq, eq_comm (a := token)]

end RoundTrips

/-- For every accepted list of keys and whatever the assertion says, `sign` gives a token that
comes back as it was signed, and only where it may, exactly if the id of the active key has no dot
and neither time has more digits than Python writes. -/
theorem assertion_round_trips_iff (hmac : List UInt8 → List UInt8 → List UInt8)
    (runtime : PythonRuntime) {tables : NameTables} (lawful : tables.Lawful)
    {spec : String} {settings : EdgeSettings} {keyId : String} {key : List UInt8}
    (configured : Configured spec settings keyId key)
    {raw host : String} {allowApex : Bool}
    (canonical : canonicalize tables raw allowApex = .ok host)
    (app dom ref rid : String) (issued ttl : Int) :
    (∃ token, sign hmac keyId key app dom ref host rid issued ttl = some token ∧
        RoundTrips hmac runtime settings token
          (issue keyId app dom ref host rid issued ttl)) ↔
      '.' ∉ keyId.toList ∧ (Nat.toDigits 10 issued.natAbs).length ≤ intMaxStrDigits ∧
        (Nat.toDigits 10 (issued + ttl).natAbs).length ≤ intMaxStrDigits := by
  have known := lookup_active configured.active
  constructor
  · rintro ⟨token, signed, trips⟩
    obtain ⟨writable, rfl⟩ := sign_eq_some.mp signed
    exact ⟨fun dot => not_roundTrips_of_dot dot trips, writable⟩
  · rintro ⟨noDot, writable⟩
    exact ⟨_, sign_eq_some.mpr ⟨writable, rfl⟩,
      roundTrips_of_noDot known noDot writable (canonical_itself lawful canonical)⟩

/-! ## Two lists of keys -/

def sampleSecret : String := "0123456789abcdef0123456789abcdef"

def sampleSettings : EdgeSettings where
  assertionKeys := [("1", sampleSecret)]

/-- Accepted settings whose key id has a dot. -/
def dottedSettings : EdgeSettings where
  assertionKeys := [("k.1", sampleSecret)]

def sampleRuntime : PythonRuntime where
  str _ := ""
  int _ := none
  wideText _ := none
  exceeds _ := false
  repr text := "'" ++ text ++ "'"
  lower := PythonText.lower
  lower_ascii _ _ := rfl
  exceeds_dumpsInOrder _ _ := rfl

/-- The payload of the sample assertion, encoded. -/
def samplePayload : String :=
  "eyJhcHAiOiIxIiwiZG9tIjoiMiIsImV4cCI6MTA2MCwiaG9zdCI6ImZvcm1zLmV4YW1wbGUuY29tIiwi" ++
    "aWF0IjoxMDAwLCJyZWYiOiJ3b3Jrc3BhY2UiLCJyaWQiOiJyMSJ9"

/-- HMAC-SHA256 under the sample secret, for the sample payload. -/
def sampleHmac (key data : List UInt8) : List UInt8 :=
  if key = encodeUtf8 sampleSecret ∧ data = encodeUtf8 (signingInput "1" samplePayload) then
    [34, 226, 126, 3, 81, 165, 196, 74, 122, 134, 211, 11, 212, 85, 42, 197, 65, 110, 17,
      233, 44, 155, 197, 142, 224, 101, 148, 44, 177, 88, 92, 175]
  else if key = encodeUtf8 sampleSecret ∧ data = encodeUtf8 (signingInput "k.1" samplePayload) then
    [184, 116, 165, 242, 63, 94, 196, 215, 50, 250, 172, 228, 225, 12, 127, 148, 162, 115,
      145, 209, 189, 107, 17, 154, 99, 107, 204, 96, 245, 134, 105, 76]
  else []

theorem sampleSettings_configured :
    Configured "1:0123456789abcdef0123456789abcdef" sampleSettings "1" (encodeUtf8 sampleSecret) where
  keys := by
    have parsed : parseKeys "1:0123456789abcdef0123456789abcdef" =
        .ok [("1", encodeUtf8 sampleSecret)] := by rfl
    rw [keyPairs, parsed]
    simp [sampleSettings, decodeUtf8_encodeUtf8, bind, Except.bind, pure, Except.pure]
  valid := by rfl
  active := by rfl

theorem dottedSettings_configured :
    Configured "k.1:0123456789abcdef0123456789abcdef" dottedSettings "k.1"
      (encodeUtf8 sampleSecret) where
  keys := by
    have parsed : parseKeys "k.1:0123456789abcdef0123456789abcdef" =
        .ok [("k.1", encodeUtf8 sampleSecret)] := by rfl
    rw [keyPairs, parsed]
    simp [dottedSettings, decodeUtf8_encodeUtf8, bind, Except.bind, pure, Except.pure]
  valid := by rfl
  active := by rfl

theorem assertion_round_trips_undotted :
    ∃ token, sign sampleHmac "1" (encodeUtf8 sampleSecret) "1" "2" "workspace" "forms.example.com"
        "r1" 1000 60 = some token ∧
      RoundTrips sampleHmac sampleRuntime sampleSettings token
        (issue "1" "1" "2" "workspace" "forms.example.com" "r1" 1000 60) :=
  (assertion_round_trips_iff sampleHmac sampleRuntime sampleEnvironment_lawful
    sampleSettings_configured
    (show canonicalize sampleEnvironment.tables "forms.example.com" false =
      .ok "forms.example.com" from rfl)
    "1" "2" "workspace" "r1" 1000 60).mpr (by decide)

/-- The service refuses a token that it has just signed with an accepted key. -/
theorem assertion_round_trip_dotted :
    Configured "k.1:0123456789abcdef0123456789abcdef" dottedSettings "k.1"
        (encodeUtf8 sampleSecret) ∧
      canonicalize sampleEnvironment.tables "forms.example.com" false = .ok "forms.example.com" ∧
      ∃ token, sign sampleHmac "k.1" (encodeUtf8 sampleSecret) "1" "2" "workspace"
          "forms.example.com" "r1" 1000 60 = some token ∧
        verify sampleHmac sampleRuntime (some token) dottedSettings.signingKeys none none 1000 30 =
          .error ⟨.malformed, "Assertion is not a v1 token"⟩ ∧
        ¬ RoundTrips sampleHmac sampleRuntime dottedSettings token
          (issue "k.1" "1" "2" "workspace" "forms.example.com" "r1" 1000 60) := by
  have dot : '.' ∈ (issue "k.1" "1" "2" "workspace" "forms.example.com" "r1" 1000
      60).keyId.toList := by decide
  refine ⟨dottedSettings_configured, rfl, _, sign_eq_some.mpr ⟨by decide, rfl⟩, ?_,
    not_roundTrips_of_dot dot⟩
  rw [verify, openToken_dotted dot]
  rfl

end CustomDomain
