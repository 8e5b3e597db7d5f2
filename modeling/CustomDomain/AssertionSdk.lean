import CustomDomain.Assertions

/-!
# The verifier of the TypeScript package

`verifyAssertion` of the package for origins in TypeScript, with its own base64
decoder.  Numbers are doubles: every sum is rounded.
-/

namespace CustomDomain.TypeScript

open PythonText JsonText DoubleRounding

/-! ## Base64 -/

/-- The loop of `base64urlDecode`: the characters of the alphabet it collects,
whether a padding was complete, and how many characters the last group has. -/
def collect (data : List Char) (quad pads : Nat) : List Char → List Char × Bool × Nat
  | [] => (data, false, quad)
  | character :: rest =>
      if character = '=' then
        if 2 ≤ quad then
          if 4 ≤ quad + (pads + 1) then (data, true, quad) else collect data quad (pads + 1) rest
        else collect data quad pads rest
      else if (Base64.value? character).isNone then collect data quad pads rest
      else collect (data ++ [character]) ((quad + 1) % 4) 0 rest

/-- What `base64urlDecode` makes of the characters it collected. -/
def decodeCollected : List Char × Bool × Nat → Option (List UInt8)
  | (data, complete, quad) => if complete = false ∧ quad ≠ 0 then none else Base64.atob data

/-- `base64urlDecode`. -/
def base64urlDecode (text : String) : Option (List UInt8) :=
  if text.toList.all fun character => character.toNat < 128 then
    decodeCollected (collect [] 0 0
      ((text.toList ++ Base64.padding text.toList.length).map Base64.ofUrlsafe))
  else none

section Collect

theorem mapM_value?_append {data : List Char} {values : List Nat} {character : Char} {value : Nat}
    (read : data.mapM Base64.value? = some values)
    (inside : Base64.value? character = some value) :
    (data ++ [character]).mapM Base64.value? = some (values ++ [value]) := by
  simp [List.mapM_append, read, inside]

theorem length_of_mapM {data : List Char} {values : List Nat}
    (read : data.mapM Base64.value? = some values) : data.length = values.length := by
  induction data generalizing values with
  | nil =>
      cases read
      rfl
  | cons character rest ih =>
      rw [List.mapM_cons] at read
      obtain ⟨value, -, read⟩ := Option.bind_eq_some_iff.mp read
      obtain ⟨later, found, read⟩ := Option.bind_eq_some_iff.mp read
      cases read
      rw [List.length_cons, ih found, List.length_cons]

/-- Whole groups decode. -/
theorem atob_of_mapM {data : List Char} {values : List Nat}
    (read : data.mapM Base64.value? = some values) (whole : values.length % 4 ≠ 1) :
    Base64.atob data = some (Base64.pack values) := by
  rw [Base64.atob, length_of_mapM read, if_neg whole, read, Option.map_some]

/-- The loop reads the groups that CPython's decoder reads. -/
theorem decodeCollected_collect (text : List Char) (before group : List Nat) (pads : Nat)
    {data : List Char} (read : data.mapM Base64.value? = some (before ++ group))
    (whole : before.length % 4 = 0) (short : group.length < 4) :
    decodeCollected (collect data group.length pads text) =
      (Base64.gather group pads text).map fun values => Base64.pack (before ++ values) := by
  induction text generalizing before group pads data with
  | nil =>
      cases group with
      | nil =>
          have decoded := atob_of_mapM read (by simpa using by omega)
          simpa [collect, decodeCollected, Base64.gather] using decoded
      | cons first rest => simp [collect, decodeCollected, Base64.gather]
  | cons character rest ih =>
      by_cases isPad : character = '='
      · subst isPad
        rw [Base64.gather_pad]
        simp only [collect, if_true]
        split
        next two =>
          split
          next ends =>
            have decoded := atob_of_mapM read (by rw [List.length_append]; omega)
            simpa [decodeCollected] using decoded
          next => exact ih before group (pads + 1) read whole short
        next => exact ih before group pads read whole short
      · cases inside : Base64.value? character with
        | none =>
            rw [Base64.gather_skip isPad inside]
            simp only [collect, isPad, inside, Option.isNone_none, if_true, if_false]
            exact ih before group pads read whole short
        | some value =>
            have extended := mapM_value?_append read inside
            rw [Base64.gather_value inside]
            simp only [collect, isPad, inside, Option.isNone_some, if_false, Bool.false_eq_true]
            split
            next full =>
              rw [List.append_assoc] at extended
              have later := ih (before ++ (group ++ [value])) [] 0
                (by rw [List.append_nil]; exact extended)
                (by simp only [List.length_append, List.length_cons, List.length_nil]; omega)
                (by decide)
              rw [full]
              simpa [Function.comp_def] using later
            next room =>
              rw [List.append_assoc] at extended
              have later := ih before (group ++ [value]) 0 extended whole
                (by simp only [List.length_append, List.length_cons, List.length_nil]; omega)
              rw [List.length_append, List.length_singleton] at later
              rw [Nat.mod_eq_of_lt (by omega)]
              exact later

/-- The decoder of the package is that of Python. -/
theorem base64urlDecode_eq (text : String) : base64urlDecode text = unb64 text := by
  have pads : (Base64.padding text.toList.length).all
      (fun character => decide (character.toNat < 128)) = true := by
    simp [Base64.padding]
  rw [base64urlDecode, unb64, Base64.urlsafeDecode, List.all_append, pads, Bool.and_true]
  split
  · rw [Base64.a2b_eq]
    exact decodeCollected_collect _ [] [] 0 rfl rfl (by decide)
  · rfl

end Collect

/-! ## The verifier -/

/-- What the language makes of JSON values that the edge does not write, and of
texts. -/
structure Runtime where
  /-- `String` of a number. -/
  show_ : Rat → String
  /-- `Number.parseInt` of a text of digits with a sign and spaces around. -/
  parseInt : String → Option Int
  /-- `JSON.stringify` of a text. -/
  stringify : String → String
  /-- `String.prototype.toLowerCase`. -/
  toLowerCase : String → String
  toLowerCase_ascii : ∀ text, (∀ character ∈ text.toList, character.toNat < 128) →
    toLowerCase text = PythonText.lower text

mutual

/-- Whether a value is JSON, without Python's constants. -/
def isStandard : Value → Bool
  | .constant _ => false
  | .arr items => areStandard items
  | .obj fields => areStandardFields fields
  | _ => true

def areStandard : List Value → Bool
  | [] => true
  | item :: rest => isStandard item && areStandard rest

def areStandardFields : List (String × Value) → Bool
  | [] => true
  | (_, value) :: rest => isStandard value && areStandardFields rest

end

/-- `new TextDecoder("utf-8", { fatal: true }).decode`: a byte order mark is
dropped. -/
def decodeText : List UInt8 → Option String
  | 0xef :: 0xbb :: 0xbf :: rest => decodeUtf8 rest
  | data => decodeUtf8 data

/-- `JSON.parse`. -/
def jsonParse (text : String) : Option Value := (read text).filter isStandard

/-- A refusal, or the error of Web Crypto for an empty key. -/
inductive Failure where
  | invalid (refusal : AssertionInvalid)
  | dataError

section Verifier

variable (hmac : List UInt8 → List UInt8 → List UInt8) (runtime : Runtime)

def asString : Value → Option String
  | .str text => some text
  | .number _ value => if isFinite value then some (runtime.show_ (toDouble value)) else none
  | _ => none

def asInt : Value → Option Int
  | .number _ value => if isFinite value then some (truncate (toDouble value)) else none
  | .str text => runtime.parseInt text
  | _ => none

/-- `decodePayload`, as the assertion it is for. -/
def decodePayload (keyId text : String) : Option Assertion := do
  let raw ← base64urlDecode text
  let decoded ← decodeText raw
  match ← jsonParse decoded with
  | .obj fields =>
      let app ← member? "app" fields >>= asString runtime
      let dom ← member? "dom" fields >>= asString runtime
      let ref ← member? "ref" fields >>= asString runtime
      let host ← member? "host" fields >>= asString runtime
      let iat ← member? "iat" fields >>= asInt runtime
      let exp ← member? "exp" fields >>= asInt runtime
      let rid ← member? "rid" fields >>= asString runtime
      return {
        applicationId := app
        domainId := dom
        reference := ref
        hostname := host
        issuedAt := iat
        expiresAt := exp
        requestId := rid
        keyId := keyId }
  | _ => none

/-- The assertion of a payload, if the signature is one under the key that its id
names. -/
def openParts (keys : List (String × Secret)) (keyId payload signature : String) :
    Except Failure Assertion :=
  match keys.lookup keyId with
  | none => .error (.invalid
      ⟨.unknownKey, "Assertion signed with unknown key id " ++ runtime.stringify keyId⟩)
  | some secret =>
      match base64urlDecode signature with
      | none => .error (.invalid ⟨.malformed, "Assertion signature is not base64url"⟩)
      | some given =>
          if secret.key = [] then .error .dataError
          else if hmac secret.key (encodeUtf8 (signingInput keyId payload)) ≠ given then
            .error (.invalid ⟨.badSignature, "Assertion signature does not verify"⟩)
          else
            match decodePayload runtime keyId payload with
            | none => .error (.invalid ⟨.malformed, "Assertion payload is not valid"⟩)
            | some assertion => .ok assertion

/-- The signature and the payload. -/
def openToken (token : Option String) (keys : List (String × Secret)) :
    Except Failure Assertion :=
  match tokenParts token with
  | .error refusal => .error (.invalid refusal)
  | .ok (keyId, payload, signature) => openParts hmac runtime keys keyId payload signature

/-- The sum of two numbers. -/
def add (first second : Rat) : Rat := toDouble (first + second)

/-- The checks of the age, the application and the hostname. -/
def checkClaims (applicationId : String) (hostname : Option String) (now skew : Int)
    (assertion : Assertion) : Except Failure Assertion :=
  let skew := toDouble skew
  let current : Rat := ⌊toDouble now⌋
  if (assertion.issuedAt : Rat) > add current skew then
    .error (.invalid ⟨.notYetValid, "Assertion issued in the future"⟩)
  else if add assertion.expiresAt skew < current then
    .error (.invalid ⟨.expired, "Assertion has expired"⟩)
  else if assertion.applicationId ≠ applicationId then
    .error (.invalid ⟨.wrongApplication, "Assertion is for another application"⟩)
  else if hostname.any fun name => assertion.hostname ≠ rstripOf '.' (runtime.toLowerCase name) then
    .error (.invalid ⟨.wrongHostname, "Assertion is for another hostname"⟩)
  else .ok assertion

/-- `verifyAssertion`, at the time `now`. -/
def verifyAssertion (token : Option String) (keys : List (String × Secret))
    (applicationId : String) (hostname : Option String) (now skew : Int) :
    Except Failure Assertion := do
  let assertion ← openToken hmac runtime token keys
  checkClaims runtime applicationId hostname now skew assertion

end Verifier

/-! ## The verifiers agree -/

/-- The same fields, or the same refusal. -/
inductive Agree : Except AssertionInvalid Assertion → Except Failure Assertion → Prop where
  | accepted (assertion : Assertion) : Agree (.ok assertion) (.ok assertion)
  | refused {first second : AssertionInvalid} (code : first.code = second.code) :
      Agree (.error first) (.error (.invalid second))

/-- The payload is UTF-8 JSON within the limits of Python's reader, an object with the texts and
these two integers. -/
structure Wellformed (python : PythonRuntime) (payload : String) (issuedAt expiresAt : Int) :
    Prop where
  decodes : ∃ data text fields, unb64 payload = some data ∧ decodeUtf8 data = some text ∧
    python.exceeds text = false ∧ read text = some (.obj fields) ∧
    isStandard (.obj fields) = true ∧
    (∀ key ∈ ["app", "dom", "ref", "host", "rid"],
      ∃ value, member? key fields = some (.str value)) ∧
    (∃ integral, member? "iat" fields = some (.number integral issuedAt)) ∧
    ∃ integral, member? "exp" fields = some (.number integral expiresAt)
  issued : |issuedAt| < 2 ^ 53
  expires : |expiresAt| < 2 ^ 53

section Decoding

variable {data : List UInt8} {text : String} {fields : List (String × Value)}

theorem utf8EncodeChar_starter {character : Char} (starter : isStarter character = true) :
    ∃ byte : UInt8, String.utf8EncodeChar character = [byte] ∧ byte ≠ 0 ∧ byte < 0x80 := by
  simp only [isStarter, JsonText.isSpace, Bool.or_eq_true, beq_iff_eq] at starter
  rcases starter with (((((rfl | rfl) | rfl) | rfl) | rfl) | rfl) | rfl
  all_goals exact ⟨_, rfl, by decide, by decide⟩

/-- The bytes of an object begin with two ASCII characters. -/
theorem data_starts (decoded : decodeUtf8 data = some text)
    (found : read text = some (.obj fields)) :
    ∃ (first second : UInt8) (rest : List UInt8), data = first :: second :: rest ∧ first ≠ 0 ∧
      first < 0x80 ∧ second ≠ 0 := by
  obtain ⟨first, second, later, shape, starter, starter'⟩ := read_obj_starts found
  obtain ⟨byte, encoded, nonzero, ascii⟩ := utf8EncodeChar_starter starter
  obtain ⟨byte', encoded', nonzero', -⟩ := utf8EncodeChar_starter starter'
  refine ⟨byte, byte', later.flatMap String.utf8EncodeChar, ?_, nonzero, ascii, nonzero'⟩
  rw [← encodeUtf8_of_decodeUtf8 decoded, encodeUtf8, shape, List.flatMap_cons, List.flatMap_cons,
    encoded, encoded']
  rfl

/-- Python takes the bytes of an object for UTF-8. -/
theorem jsonText_of_read (python : PythonRuntime) (decoded : decodeUtf8 data = some text)
    (found : read text = some (.obj fields)) : jsonText python data = some text := by
  obtain ⟨first, second, rest, rfl, nonzero, ascii, nonzero'⟩ := data_starts decoded found
  unfold jsonText
  split
  next shape =>
    cases shape
    exact absurd ascii (by decide)
  next shape =>
    cases shape
    exact absurd ascii (by decide)
  next shape =>
    cases shape
    exact absurd ascii (by decide)
  next shape =>
    cases shape
    simp [nonzero, nonzero', decoded]
  next => exact decoded

/-- No byte order mark is dropped. -/
theorem decodeText_of_read (decoded : decodeUtf8 data = some text)
    (found : read text = some (.obj fields)) : decodeText data = some text := by
  obtain ⟨first, second, rest, rfl, -, ascii, -⟩ := data_starts decoded found
  unfold decodeText
  split
  next shape =>
    cases shape
    exact absurd ascii (by decide)
  next => exact decoded

theorem pythonInt_number (python : PythonRuntime) (integral : Bool) {value : Int}
    (small : |value| < 2 ^ 53) : pythonInt python (.number integral value) = some value := by
  cases integral with
  | true => simp [pythonInt, truncate_int]
  | false => simp [pythonInt, isFinite_int small, toDouble_int small, truncate_int]

theorem asInt_number (runtime : Runtime) (integral : Bool) {value : Int}
    (small : |value| < 2 ^ 53) : asInt runtime (.number integral value) = some value := by
  simp [asInt, isFinite_int small, toDouble_int small, truncate_int]

/-- Both packages read a well-formed payload as the same assertion. -/
theorem Wellformed.reads {python : PythonRuntime} {payload : String} {issuedAt expiresAt : Int}
    (wellformed : Wellformed python payload issuedAt expiresAt) (runtime : Runtime)
    (keyId : String) :
    ∃ assertion : Assertion, assertion.issuedAt = issuedAt ∧ assertion.expiresAt = expiresAt ∧
      ((unb64 payload).bind (loads python)).bind (payloadAssertion python keyId) =
        some assertion ∧
      decodePayload runtime keyId payload = some assertion := by
  obtain ⟨data, text, fields, unpacked, decoded, within, found, standard, texts, ⟨first, iat⟩,
    ⟨second, exp⟩⟩ := wellformed.decodes
  simp only [List.mem_cons, List.not_mem_nil, or_false, forall_eq_or_imp, forall_eq] at texts
  obtain ⟨⟨app, isApp⟩, ⟨dom, isDom⟩, ⟨ref, isRef⟩, ⟨host, isHost⟩, ⟨rid, isRid⟩⟩ := texts
  refine ⟨⟨app, dom, ref, host, issuedAt, expiresAt, rid, keyId⟩, rfl, rfl, ?_, ?_⟩
  · simp [unpacked, loads, jsonText_of_read python decoded found, within, found, payloadAssertion,
      isApp, isDom, isRef, isHost, isRid, iat, exp, pythonInt_number python _ wellformed.issued,
      pythonInt_number python _ wellformed.expires, pythonStr]
  · have parsed : jsonParse text = some (.obj fields) := by
      rw [jsonParse, found, Option.filter_some, if_pos standard]
    simp [decodePayload, base64urlDecode_eq, unpacked, decodeText_of_read decoded found, parsed,
      isApp, isDom, isRef, isHost, isRid, iat, exp, asString,
      asInt_number runtime _ wellformed.issued, asInt_number runtime _ wellformed.expires]

end Decoding

section Agreement

variable (hmac : List UInt8 → List UInt8 → List UInt8) (python : PythonRuntime)
  (runtime : Runtime)

/-- What the verifiers are promised of every payload whose signature is valid. -/
def Promised (python : PythonRuntime) (token : Option String) (keys : List (String × Secret))
    (holds : Int → Int → Prop) : Prop :=
  ∀ keyId payload signature secret, tokenParts token = .ok (keyId, payload, signature) →
    keys.lookup keyId = some secret →
    unb64 signature = some (mac hmac secret.key (signingInput keyId payload)) →
    ∃ issuedAt expiresAt, Wellformed python payload issuedAt expiresAt ∧ holds issuedAt expiresAt

/-- What a verifier makes of a token before it looks at the time: an assertion of
which the promise holds, or a refusal. -/
inductive OpenAgree (holds : Int → Int → Prop) :
    Except AssertionInvalid Assertion → Except Failure Assertion → Prop where
  | opened (assertion : Assertion) (promise : holds assertion.issuedAt assertion.expiresAt) :
      OpenAgree holds (.ok assertion) (.ok assertion)
  | refused {first second : AssertionInvalid} (code : first.code = second.code) :
      OpenAgree holds (.error first) (.error (.invalid second))

variable {hmac python runtime}

theorem mem_of_lookup {keys : List (String × Secret)} {keyId : String} {secret : Secret}
    (known : keys.lookup keyId = some secret) : (keyId, secret) ∈ keys := by
  obtain ⟨before, after, rfl, -⟩ := List.lookup_eq_some_iff.mp known
  simp

/-- Both packages open a token in the same way. -/
theorem openToken_agree {token : Option String} {keys : List (String × Secret)}
    {holds : Int → Int → Prop} (filled : ∀ entry ∈ keys, entry.2.key ≠ [])
    (promised : Promised hmac python token keys holds) :
    OpenAgree holds
      (CustomDomain.openToken hmac python token fun keyId => (keys.lookup keyId).map Secret.key)
      (openToken hmac runtime token keys) := by
  unfold CustomDomain.openToken openToken
  cases parts : tokenParts token with
  | error refusal => exact .refused rfl
  | ok found =>
      obtain ⟨keyId, payload, signature⟩ := found
      simp only [CustomDomain.openParts, openParts, base64urlDecode_eq]
      cases known : keys.lookup keyId with
      | none => exact .refused rfl
      | some secret =>
          simp only [Option.map_some]
          cases given : unb64 signature with
          | none => exact .refused rfl
          | some bytes =>
              simp only [mac, if_neg (filled _ (mem_of_lookup known))]
              by_cases valid : hmac secret.key (encodeUtf8 (signingInput keyId payload)) = bytes
              · obtain ⟨issuedAt, expiresAt, wellformed, promise⟩ :=
                  promised keyId payload signature secret parts known (by rw [given, mac, valid])
                obtain ⟨assertion, issued, expires, left, right⟩ :=
                  wellformed.reads runtime keyId
                simp only [valid, left, right, ne_eq, not_true_eq_false, if_false]
                exact .opened assertion (by rw [issued, expires]; exact promise)
              · simp only [ne_eq, valid, not_false_eq_true, if_true]
                exact .refused rfl

/-- The sums of the checks are exact. -/
structure Exact (now skew expiresAt : Int) : Prop where
  current : |now| < 2 ^ 53
  allowed : |skew| < 2 ^ 53
  latest : |now + skew| < 2 ^ 53
  earliest : |expiresAt + skew| < 2 ^ 53

theorem add_int {first second : Int} (small : |first + second| < 2 ^ 53) :
    add first second = ((first + second : Int) : Rat) := by
  rw [add, ← Int.cast_add, toDouble_int small]

/-- Both packages check the claims in the same way. -/
theorem checkClaims_agree {assertion : Assertion} {applicationId : String}
    {hostname : Option String} {now skew : Int}
    (exact_ : Exact now skew assertion.expiresAt)
    (ascii : ∀ name ∈ hostname, ∀ character ∈ name.toList, character.toNat < 128) :
    Agree (CustomDomain.checkClaims (some applicationId)
        (hostname.map fun name => rstripOf '.' (python.lower name)) now skew assertion)
      (checkClaims runtime applicationId hostname now skew assertion) := by
  have current : ((⌊toDouble (now : Rat)⌋ : Int) : Rat) = (now : Rat) := by
    rw [toDouble_int exact_.current, Int.floor_intCast]
  have names : hostname.any (fun name => decide (assertion.hostname ≠
        rstripOf '.' (runtime.toLowerCase name))) =
      (hostname.map fun name => rstripOf '.' (python.lower name)).any
        fun name => decide (name ≠ assertion.hostname) := by
    cases hostname with
    | none => rfl
    | some name =>
        have lowered : runtime.toLowerCase name = python.lower name := by
          rw [runtime.toLowerCase_ascii name (ascii name rfl), python.lower_ascii name (ascii name rfl)]
        simp [lowered, eq_comm]
  simp only [CustomDomain.checkClaims, checkClaims, current, toDouble_int exact_.allowed,
    add_int exact_.latest, add_int exact_.earliest, names, Int.cast_lt, gt_iff_lt]
  split
  · exact .refused rfl
  · split
    · exact .refused rfl
    · by_cases same : assertion.applicationId = applicationId
      · simp only [same, Option.any_some, ne_eq, not_true_eq_false, decide_false, if_false,
          Bool.false_eq_true]
        split
        · exact .refused rfl
        · exact .accepted assertion
      · simp only [Option.any_some, ne_eq, same, Ne.symm same, not_false_eq_true, decide_true,
          if_true]
        exact .refused rfl

/-- For every token, keys with secrets that are not empty, application and ASCII
hostname, the two packages return the same fields or refuse with the same code, if
every payload with a valid signature is JSON as the edge writes it, within the limits of Python's
reader, and the sums with its expiry, the time and the skew are exact in doubles. -/
theorem verifiers_agree {token : Option String} {keys : List (String × Secret)}
    {applicationId : String} {hostname : Option String} {now skew : Int}
    (filled : ∀ entry ∈ keys, entry.2.key ≠ [])
    (ascii : ∀ name ∈ hostname, ∀ character ∈ name.toList, character.toNat < 128)
    (promised : Promised hmac python token keys fun _ expiresAt => Exact now skew expiresAt) :
    Agree (CustomDomain.verifyAssertion hmac python token keys applicationId hostname now skew)
      (verifyAssertion hmac runtime token keys applicationId hostname now skew) := by
  have opened : OpenAgree _
      (CustomDomain.openToken hmac python token fun keyId => (keys.lookup keyId).map Secret.key)
      (openToken hmac runtime token keys) := openToken_agree filled promised
  unfold CustomDomain.verifyAssertion verifyAssertion
  generalize CustomDomain.openToken hmac python token
    (fun keyId => (keys.lookup keyId).map Secret.key) = left at opened ⊢
  generalize openToken hmac runtime token keys = right at opened ⊢
  cases opened with
  | opened assertion exact_ => exact checkClaims_agree exact_ ascii
  | refused code => exact .refused code

end Agreement

/-! ## What the edge writes is well formed -/

section Written

variable {python : PythonRuntime} {assertion : Assertion}

/-- An integer below 2 ^ 53 has at most sixteen digits. -/
theorem fits_of_small {value : Int} (small : |value| < 2 ^ 53) : (Scalar.integer value).Fits := by
  have below : value.natAbs < 10 ^ 16 := by
    rw [Int.abs_eq_natAbs] at small
    omega
  exact ((Nat.length_toDigits_le_iff (by decide) (by decide)).mpr below).trans (by decide)

theorem writable_of_small (issued : |assertion.issuedAt| < 2 ^ 53)
    (expires : |assertion.expiresAt| < 2 ^ 53) : assertion.Writable :=
  ⟨fits_of_small issued, fits_of_small expires⟩

theorem Wellformed.of_payload (issued : |assertion.issuedAt| < 2 ^ 53)
    (expires : |assertion.expiresAt| < 2 ^ 53) :
    Wellformed python assertion.payload assertion.issuedAt assertion.expiresAt where
  decodes := by
    have within : python.exceeds (dumps assertion.toPayload) = false := by
      rw [dumps_eq]
      exact python.exceeds_dumpsInOrder _ fun field member =>
        (writable_of_small issued expires).fits field ((List.mem_insertionSort _).mp member)
    refine ⟨_, _, _, unb64_b64 _, decodeUtf8_encodeUtf8 _, within,
      read_dumps (by simp [Assertion.toPayload]), ?_⟩
    rw [sorted_toPayload]
    simp [isStandard, areStandardFields, Scalar.read, member?, List.lookup_cons]
  issued := issued
  expires := expires

/-- A token of the edge keeps the promise. -/
theorem Promised.of_token {hmac : List UInt8 → List UInt8 → List UInt8} {key : List UInt8}
    {keys : List (String × Secret)} {holds : Int → Int → Prop}
    (noDot : '.' ∉ assertion.keyId.toList) (issued : |assertion.issuedAt| < 2 ^ 53)
    (expires : |assertion.expiresAt| < 2 ^ 53)
    (promise : holds assertion.issuedAt assertion.expiresAt) :
    Promised hmac python (some (assertion.token hmac key)) keys holds := by
  intro keyId payload signature secret parts _ _
  rw [tokenParts_token noDot] at parts
  simp only [Except.ok.injEq, Prod.mk.injEq] at parts
  obtain ⟨rfl, rfl, rfl⟩ := parts
  exact ⟨_, _, .of_payload issued expires, promise⟩

end Written

def sampleRuntime : Runtime where
  show_ _ := ""
  parseInt _ := none
  stringify text := "\"" ++ text ++ "\""
  toLowerCase := PythonText.lower
  toLowerCase_ascii := CustomDomain.sampleRuntime.lower_ascii

def sampleKeys : List (String × Secret) := [("1", .text sampleSecret)]

def sampleAssertion : Assertion :=
  issue "1" "1" "2" "workspace" "forms.example.com" "r1" 1000 60

theorem verifiers_agree_sample :
    Agree
      (CustomDomain.verifyAssertion sampleHmac CustomDomain.sampleRuntime
        (some (sampleAssertion.token sampleHmac (encodeUtf8 sampleSecret))) sampleKeys "1"
        (some "Forms.Example.com.") 1000 30)
      (verifyAssertion sampleHmac sampleRuntime
        (some (sampleAssertion.token sampleHmac (encodeUtf8 sampleSecret))) sampleKeys "1"
        (some "Forms.Example.com.") 1000 30) := by
  have promised : Promised sampleHmac CustomDomain.sampleRuntime
      (some (sampleAssertion.token sampleHmac (encodeUtf8 sampleSecret))) sampleKeys
      fun _ expiresAt => Exact 1000 30 expiresAt := by
    refine .of_token (by decide) ?_ ?_ ⟨by norm_num, by norm_num, by norm_num, ?_⟩
    · norm_num [sampleAssertion, issue]
    · norm_num [sampleAssertion, issue]
    · norm_num [sampleAssertion, issue]
  refine verifiers_agree (by decide) ?_ promised
  rintro name ⟨⟩
  exact forall_of_all (by decide)

/-- An assertion that expires at the last integer below 2 ^ 53. -/
def lateAssertion : Assertion :=
  issue "1" "1" "2" "workspace" "forms.example.com" "r1" 0 9007199254740991

/-- The payload of that assertion, encoded. -/
def latePayload : String :=
  "eyJhcHAiOiIxIiwiZG9tIjoiMiIsImV4cCI6OTAwNzE5OTI1NDc0MDk5MSwiaG9zdCI6ImZvcm1zLmV4YW1wbGUuY29t" ++
    "IiwiaWF0IjowLCJyZWYiOiJ3b3Jrc3BhY2UiLCJyaWQiOiJyMSJ9"

/-- HMAC-SHA256 under the sample secret, for that payload. -/
def lateHmac (key data : List UInt8) : List UInt8 :=
  if key = encodeUtf8 sampleSecret ∧ data = encodeUtf8 (signingInput "1" latePayload) then
    [151, 116, 2, 104, 237, 176, 180, 87, 108, 44, 101, 205, 60, 210, 78, 109, 81, 26, 193,
      51, 131, 94, 63, 54, 242, 244, 57, 239, 100, 104, 186, 91]
  else []

/-- Four seconds after that, with a skew of four: the sum of the expiry and the
skew is not a double. -/
theorem verifiers_disagree_beyond_doubles :
    (∀ entry ∈ sampleKeys, entry.2.key ≠ []) ∧
      (lateAssertion.token lateHmac (encodeUtf8 sampleSecret)).toList.all
        (fun character => character.toNat < 256) = true ∧
      Promised lateHmac CustomDomain.sampleRuntime
        (some (lateAssertion.token lateHmac (encodeUtf8 sampleSecret))) sampleKeys (fun _ _ => True) ∧
      CustomDomain.verifyAssertion lateHmac CustomDomain.sampleRuntime
          (some (lateAssertion.token lateHmac (encodeUtf8 sampleSecret))) sampleKeys "1" none
          9007199254740996 4 =
        .error ⟨.expired, "Assertion has expired"⟩ ∧
      verifyAssertion lateHmac sampleRuntime
          (some (lateAssertion.token lateHmac (encodeUtf8 sampleSecret))) sampleKeys "1" none
          9007199254740996 4 =
        .ok lateAssertion := by
  have filled : ∀ entry ∈ sampleKeys, entry.2.key ≠ [] := by decide
  have noDot : '.' ∉ lateAssertion.keyId.toList := by decide
  have small : |lateAssertion.issuedAt| < 2 ^ 53 ∧ |lateAssertion.expiresAt| < 2 ^ 53 := by
    norm_num [lateAssertion, issue]
  have promised : Promised lateHmac CustomDomain.sampleRuntime
      (some (lateAssertion.token lateHmac (encodeUtf8 sampleSecret))) sampleKeys
      (fun _ _ => True) :=
    .of_token noDot small.1 small.2 trivial
  have left : CustomDomain.openToken lateHmac CustomDomain.sampleRuntime
      (some (lateAssertion.token lateHmac (encodeUtf8 sampleSecret)))
      (fun keyId => (sampleKeys.lookup keyId).map Secret.key) = .ok lateAssertion :=
    openToken_token rfl noDot (writable_of_small small.1 small.2)
  have opened : OpenAgree _ (CustomDomain.openToken lateHmac CustomDomain.sampleRuntime
        (some (lateAssertion.token lateHmac (encodeUtf8 sampleSecret)))
        fun keyId => (sampleKeys.lookup keyId).map Secret.key)
      (openToken lateHmac sampleRuntime
        (some (lateAssertion.token lateHmac (encodeUtf8 sampleSecret))) sampleKeys) :=
    openToken_agree filled promised
  have right : openToken lateHmac sampleRuntime
      (some (lateAssertion.token lateHmac (encodeUtf8 sampleSecret))) sampleKeys =
        .ok lateAssertion := by
    rw [left] at opened
    generalize openToken lateHmac sampleRuntime
      (some (lateAssertion.token lateHmac (encodeUtf8 sampleSecret))) sampleKeys = found at opened
    cases opened with
    | opened assertion promise => rfl
  refine ⟨filled, by decide +kernel, promised, ?_, ?_⟩
  · rw [CustomDomain.verifyAssertion, left]
    dsimp only [bind, Except.bind]
    rw [CustomDomain.checkClaims, if_neg, if_pos]
    · norm_num [lateAssertion, issue]
    · norm_num [lateAssertion, issue]
  · rw [verifyAssertion, right]
    dsimp only [bind, Except.bind]
    rw [checkClaims, if_neg, if_neg, if_neg, if_neg]
    · decide
    · decide
    · decide +kernel
    · decide +kernel

end CustomDomain.TypeScript
