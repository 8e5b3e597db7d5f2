import CustomDomain.ApplyUrl
import CustomDomain.Assertions
import CustomDomain.DomainConnect

/-!
# The way back from Domain Connect

`seal`, `unseal`, `encrypt` and `decrypt` of `app/services/secret_box.py`, and what
`app/services/domain_connect.py` does with them: `prepare_connect` seals the application's
address and state, `open_return_state` opens what the provider sends back, and
`back_to_application` builds the address the customer is sent to.
-/

namespace CustomDomain.ConnectReturn

open PythonText PythonUrl JsonText

/-! ## The secret box -/

/-- What the service derives from `SERVICE_SECRET_KEY`, by purpose: HMAC-SHA256 of a message,
and AES-GCM of a text under a nonce. -/
structure SecretBox where
  available : Bool
  mac : String → List UInt8 → List UInt8
  aesEncrypt : String → List UInt8 → List UInt8 → List UInt8
  aesDecrypt : String → List UInt8 → List UInt8 → Option (List UInt8)

/-- HMAC-SHA256 gives 32 bytes; AES-GCM adds a tag of 16 and undoes itself. -/
structure SecretBox.Lawful (box : SecretBox) : Prop where
  mac_length : ∀ purpose message, (box.mac purpose message).length = 32
  encrypt_length : ∀ purpose nonce plain,
    (box.aesEncrypt purpose nonce plain).length = plain.length + 16
  decrypt_encrypt : ∀ purpose nonce plain,
    box.aesDecrypt purpose nonce (box.aesEncrypt purpose nonce plain) = some plain

/-- `base64.b64encode`. -/
def b64encode (data : List UInt8) : List Char :=
  Base64.encode data ++ Base64.padding (Base64.encode data).length

/-- `base64.b64decode(…, validate=True)`: whole groups, and at most two pads, at the end. -/
def b64decode (text : List Char) : Option (List UInt8) :=
  let digits := text.rdropWhile (· == '=')
  if text.length % 4 = 0 ∧ text.length ≤ digits.length + 2 then
    (digits.mapM Base64.value?).map Base64.pack
  else none

/-- How `decrypt` fails. -/
inductive DecryptError where
  | undecryptable
  | unicodeDecodeError
  deriving DecidableEq

/-- `encrypt`, with the nonce it draws. -/
def encrypt (box : SecretBox) (plaintext purpose : String) (nonce : List UInt8) : String :=
  "v1:" ++ String.ofList (b64encode (nonce ++ box.aesEncrypt purpose nonce (encodeUtf8 plaintext)))

def decrypt (box : SecretBox) (ciphertext purpose : String) : Except DecryptError String :=
  if startsWith "v1:" ciphertext then
    match b64decode (ciphertext.toList.drop 3) with
    | none => .error .undecryptable
    | some raw =>
        match box.aesDecrypt purpose (raw.take 12) (raw.drop 12) with
        | none => .error .undecryptable
        | some plain =>
            match decodeUtf8 plain with
            | none => .error .unicodeDecodeError
            | some text => .ok text
  else .error .undecryptable

/-- The values of a payload. -/
inductive Item where
  | none
  | text (value : String)
  | integer (value : Int)

/-- A member as `json.dumps(…, ensure_ascii=False)` writes it and as it is read; the keys are
plain letters. -/
def Item.field (key : String) : Item → Field
  | .none => (key, ['n', 'u', 'l', 'l'], .null)
  | .text value => (key, rawQuoted value, .str value)
  | .integer value => (key, (Scalar.integer value).written, (Scalar.integer value).read)

def Item.ofOption : Option String → Item
  | Option.none => .none
  | some value => .text value

/-- The text of a payload. -/
def payloadText (payload : List (String × Item)) : String :=
  String.ofList ('{' :: joinFields (payload.map fun entry => entry.2.field entry.1) ++ ['}'])

/-- The body of a sealed payload. -/
def sealedBody (payload : List (String × Item)) : String := b64 (encodeUtf8 (payloadText payload))

/-- `seal`. -/
def sealValue (box : SecretBox) (payload : List (String × Item)) (purpose : String) : String :=
  sealedBody payload ++ "." ++ b64 (box.mac purpose (encodeUtf8 (sealedBody payload)))

/-- `unseal`. -/
def unsealValue (box : SecretBox) (value purpose : String) : Option (List (String × Value)) :=
  match partition '.' value with
  | none => none
  | some (body, mac) =>
      if 4096 < value.length then none
      else if isAscii body = false then none
      else
        match unb64 mac with
        | none => none
        | some tag =>
            if tag ≠ box.mac purpose (encodeUtf8 body) then none
            else
              match ((unb64 body).bind decodeUtf8).bind read with
              | some (.obj data) => some data
              | _ => none

/-! ## Identifiers -/

/-- The hexadecimal digits of a number, `width` of them. -/
def hexDigits : Nat → Nat → List Char
  | 0, _ => []
  | width + 1, value => hexDigits width (value / 16) ++ [Nat.digitChar (value % 16)]

/-- `str` of a `uuid.UUID`. -/
def uuidText (id : Uuid) : String :=
  let hex := hexDigits 32 id
  String.ofList (hex.take 8 ++ '-' :: (hex.drop 8).take 4 ++ '-' :: (hex.drop 12).take 4 ++
    '-' :: (hex.drop 16).take 4 ++ '-' :: hex.drop 20)

/-- `text.replace(pattern, "")`. -/
def removeAll (pattern : List Char) : Nat → List Char → List Char
  | 0, text => text
  | _ + 1, [] => []
  | fuel + 1, first :: rest =>
      if pattern.isPrefixOf (first :: rest) then
        removeAll pattern fuel ((first :: rest).drop pattern.length)
      else first :: removeAll pattern fuel rest

def hexDigit? (character : Char) : Option Nat :=
  match decimalValue? character with
  | some value => some value
  | none =>
      if 'a' ≤ character ∧ character ≤ 'f' then some (character.toNat - 87)
      else if 'A' ≤ character ∧ character ≤ 'F' then some (character.toNat - 55)
      else none

def hexValue (digits : List Nat) : Nat := digits.foldl (fun total digit => 16 * total + digit) 0

/-- `int(text, 16)`, or `none` where it raises: white space around it, a sign, `0x`, and single
underscores between digits are taken. -/
def intHex (text : List Char) : Option Int :=
  let body := trim PythonText.isSpace text
  let (negative, body) := match body with
    | '-' :: rest => (true, rest)
    | '+' :: rest => (false, rest)
    | rest => (false, rest)
  let body := match body with
    | '0' :: mark :: rest =>
        if mark = 'x' ∨ mark = 'X' then
          match rest with
          | '_' :: rest => rest
          | rest => rest
        else body
    | rest => rest
  let groups := body.splitOn '_'
  if groups.any List.isEmpty then none
  else
    (groups.flatten.mapM hexDigit?).map fun digits =>
      if negative then -(hexValue digits : Int) else hexValue digits

/-- `uuid.UUID(text)`, or `none` where it raises. -/
def uuidOf (text : String) : Option Uuid :=
  let hex := removeAll "urn:".toList text.length text.toList
  let hex := removeAll "uuid:".toList hex.length hex
  let hex := trim (fun character => character == '{' || character == '}') hex
  let hex := hex.filter (· ≠ '-')
  if hex.length = 32 then
    match intHex hex with
    | some value => if 0 ≤ value ∧ value < 2 ^ 128 then some value.toNat else none
    | none => none
  else none

/-! ## The return state -/

/-- `STATE_PURPOSE`. -/
def statePurpose : String := "domain-connect-state"

/-- What `prepare_connect` seals: the domain, its address of the application, privately or not,
the application's state and the expiry, with the nonce that is drawn. -/
structure Issue where
  domainId : Uuid
  redirectUri : Option String
  state : Option String
  isPrivate : Bool
  expires : Int
  nonce : List UInt8

def Issue.payload (box : SecretBox) (issue : Issue) : List (String × Item) :=
  [("d", .text (uuidText issue.domainId)), ("e", .integer issue.expires),
    ("s", .ofOption issue.state),
    match issue.isPrivate, issue.redirectUri with
    | true, some redirectUri => ("x", .text (encrypt box redirectUri statePurpose issue.nonce))
    | _, redirectUri => ("r", .ofOption redirectUri)]

/-- The state that `prepare_connect` gives the provider. -/
def Issue.sealed (box : SecretBox) (issue : Issue) : String :=
  sealValue box (issue.payload box) statePurpose

/-- What `prepare_connect` adds to the signed parameters: with an address of its own to return
to, the sealed state and not the application's values. -/
def returnParams (box : SecretBox) (returnUrl : Option String) (issue : Issue) :
    List (String × String) :=
  let direct :=
    (if issue.isPrivate then [] else issue.redirectUri.toList.map fun value =>
      ("redirect_uri", value)) ++ issue.state.toList.map fun value => ("state", value)
  match returnUrl with
  | none => direct
  | some url =>
      if url.isEmpty = false ∧ box.available = true then
        [("redirect_uri", url), ("state", issue.sealed box)]
      else direct

structure Return where
  domainId : Uuid
  redirectUri : Option String
  state : Option String
  expired : Bool
  deriving DecidableEq

/-- What `open_return_state` lets through. -/
inductive ReturnError where
  | overflowError
  | unicodeDecodeError
  deriving DecidableEq

/-- `int` of the value raises an `OverflowError`. -/
def overflows : Value → Bool
  | .constant name => name != "NaN"
  | .number false value => !decide (DoubleRounding.isFinite value)
  | _ => false

def textOf : Option Value → Option String
  | some (.str text) => some text
  | _ => none

/-- `open_return_state`. -/
def openReturnState (box : SecretBox) (runtime : PythonRuntime) (value : String) (now : Rat) :
    Except ReturnError (Option Return) :=
  if box.available = false then .ok none
  else
    match unsealValue box value statePurpose with
    | none => .ok none
    | some data =>
        match (member? "d" data).bind fun found => uuidOf (pythonStr runtime found),
            member? "e" data with
        | some domainId, some found =>
            if overflows found then .error .overflowError
            else
              match pythonInt runtime found with
              | none => .ok none
              | some expires =>
                  let opened (redirectUri : Option String) : Except ReturnError (Option Return) :=
                    .ok (some {
                      domainId := domainId
                      redirectUri := redirectUri
                      state := textOf (member? "s" data)
                      expired := decide ((expires : Rat) < now) })
                  match textOf (member? "x" data) with
                  | none => opened (textOf (member? "r" data))
                  | some ciphertext =>
                      match decrypt box ciphertext statePurpose with
                      | .ok redirectUri => opened (some redirectUri)
                      | .error .undecryptable => opened none
                      | .error .unicodeDecodeError => .error .unicodeDecodeError
        | _, _ => .ok none

/-! ## The address of the application -/

/-- The parts of a URL that `https_url_problem` looks at. -/
def splitParts (tables : UnicodeTables) (url : String) : Option UrlParts :=
  (urlsplit tables url).bind fun parts =>
    match parts.port with
    | .error _ => none
    | .ok _ =>
        some {
          scheme := parts.scheme
          netloc := parts.netloc
          hostname := parts.hostname tables
          username := parts.username
          password := parts.password
          fragment := parts.fragment }

/-- What is added to the query. -/
def extraParams (state error : Option String) : List (String × String) :=
  (state.toList.map fun value => ("state", value)) ++ error.toList.map fun value => ("error", value)

/-- `back_to_application`, or `none` where the URL is refused. -/
def backToApplication (tables : UnicodeTables) (redirectUri : String) (state error : Option String) :
    Option String :=
  (urlsplit tables redirectUri).map fun parts =>
    if extraParams state error = [] then redirectUri
    else
      let added := urlencode (extraParams state error)
      let query := if parts.query.isEmpty then added else parts.query ++ "&" ++ added
      urlunsplit { parts with query := query, fragment := "" }

/-! ## The encodings are undone -/

theorem partition_append {separator : Char} {first last : String}
    (absent : separator ∉ first.toList) :
    partition separator (first ++ String.singleton separator ++ last) = some (first, last) := by
  have text : (first ++ String.singleton separator ++ last).toList =
      first.toList ++ separator :: last.toList := by simp
  have inside : ∀ character ∈ first.toList, decide (character ≠ separator) = true :=
    fun character member => decide_eq_true fun same => absent (same ▸ member)
  obtain ⟨taken, dropped⟩ := takeWhile_append (separator :: last.toList) inside (by simp)
  rw [partition, text, taken, dropped]
  simp

theorem isAscii_b64 (data : List UInt8) : isAscii (b64 data) = true := by
  rw [isAscii, b64_eq, String.toList_ofList, List.all_eq_true]
  exact fun character member => decide_eq_true (Base64.encode_facts character member).1

theorem Item.written (key : String) (item : Item) :
    Written (item.field key).2.1 (item.field key).2.2 := by
  cases item with
  | none => exact .null
  | text value => exact .rawQuoted value
  | integer value => exact .of_scalar (.integer value)

theorem read_payloadText {payload : List (String × Item)} (some_ : payload ≠ []) :
    read (payloadText payload) =
      some (.obj (payload.map fun entry => (entry.1, (entry.2.field entry.1).2.2))) := by
  have written : ∀ field ∈ payload.map fun entry => entry.2.field entry.1,
      Written field.2.1 field.2.2 := by
    intro field member
    obtain ⟨entry, -, rfl⟩ := List.mem_map.mp member
    exact entry.2.written entry.1
  have keys (entry : String × Item) : (entry.2.field entry.1).1 = entry.1 := by
    obtain ⟨key, item⟩ := entry
    cases item <;> rfl
  rw [payloadText, read_joinFields written (by simpa), List.map_map]
  simp [Function.comp_def, keys]

/-- What the service made and is not too long is opened to what it was made of. -/
theorem unsealValue_sealValue {box : SecretBox} {payload : List (String × Item)} {purpose : String}
    (some_ : payload ≠ []) (short : (sealValue box payload purpose).length ≤ 4096) :
    unsealValue box (sealValue box payload purpose) purpose =
      some (payload.map fun entry => (entry.1, (entry.2.field entry.1).2.2)) := by
  have parts : partition '.' (sealValue box payload purpose) =
      some (sealedBody payload, b64 (box.mac purpose (encodeUtf8 (sealedBody payload)))) :=
    partition_append (dot_not_mem_b64 _)
  have ascii : isAscii (sealedBody payload) = true := isAscii_b64 _
  rw [unsealValue, parts]
  simp only
  rw [if_neg (by omega), if_neg (by simp [ascii]), unb64_b64]
  simp only [ne_eq, not_true_eq_false, if_false]
  rw [sealedBody, unb64_b64, Option.bind_some, decodeUtf8_encodeUtf8, Option.bind_some,
    read_payloadText some_]

theorem b64decode_b64encode (data : List UInt8) : b64decode (b64encode data) = some data := by
  have digits : (b64encode data).rdropWhile (· == '=') = Base64.encode data := by
    rw [b64encode, Base64.padding, rdropWhile_append_replicate, List.rdropWhile_eq_self_iff]
    intro nonempty
    have other : (Base64.encode data).getLast nonempty ≠ '=' := fun same =>
      Base64.pad_not_mem_encode data (same ▸ List.getLast_mem nonempty)
    simpa using other
  have length := Base64.length_encode data
  have padded : (b64encode data).length =
      (Base64.encode data).length + (4 - (Base64.encode data).length % 4) % 4 := by
    rw [b64encode, List.length_append, Base64.padding, List.length_replicate]
  rw [b64decode]
  simp only [digits]
  rw [if_pos ⟨by omega, by omega⟩, Base64.mapM_encode, Option.map_some, Base64.pack_unpack]

theorem toList_encrypt (box : SecretBox) (plaintext purpose : String) (nonce : List UInt8) :
    (encrypt box plaintext purpose nonce).toList =
      ['v', '1', ':'] ++ b64encode (nonce ++ box.aesEncrypt purpose nonce (encodeUtf8 plaintext)) := by
  rw [encrypt, String.toList_append, String.toList_ofList, String.toList_ofList]

theorem decrypt_encrypt {box : SecretBox} (lawful : box.Lawful) (plaintext purpose : String)
    {nonce : List UInt8} (drawn : nonce.length = 12) :
    decrypt box (encrypt box plaintext purpose nonce) purpose = .ok plaintext := by
  have text := toList_encrypt box plaintext purpose nonce
  have starts : startsWith "v1:" (encrypt box plaintext purpose nonce) = true := by
    rw [startsWith, text]
    rfl
  have front : (nonce ++ box.aesEncrypt purpose nonce (encodeUtf8 plaintext)).take 12 = nonce := by
    rw [← drawn, List.take_left]
  have back : (nonce ++ box.aesEncrypt purpose nonce (encodeUtf8 plaintext)).drop 12 =
      box.aesEncrypt purpose nonce (encodeUtf8 plaintext) := by
    rw [← drawn, List.drop_left]
  rw [decrypt, if_pos starts, text, List.drop_append_of_le_length (by decide)]
  simp only [List.drop, List.nil_append]
  rw [b64decode_b64encode]
  simp only
  rw [front, back, lawful.decrypt_encrypt]
  simp only
  rw [decodeUtf8_encodeUtf8]

/-! ### Identifiers -/

theorem hexDigit?_digitChar : ∀ value < 16, hexDigit? (Nat.digitChar value) = some value ∧
    Nat.digitChar value ∉ ['-', '_', 'u', 'x', 'X', '+', '{', '}'] ∧
    PythonText.isSpace (Nat.digitChar value) = false ∧ 32 ≤ (Nat.digitChar value).toNat ∧
    (Nat.digitChar value).toNat < 128 := by
  decide +kernel

theorem mem_hexDigits {width value : Nat} {character : Char}
    (member : character ∈ hexDigits width value) :
    character ∉ ['-', '_', 'u', 'x', 'X', '+', '{', '}'] ∧
      PythonText.isSpace character = false ∧ 32 ≤ character.toNat ∧ character.toNat < 128 := by
  induction width generalizing value with
  | zero => cases member
  | succ width ih =>
      rw [hexDigits, List.mem_append, List.mem_singleton] at member
      rcases member with earlier | rfl
      · exact ih earlier
      · exact (hexDigit?_digitChar _ (Nat.mod_lt _ (by decide))).2

theorem length_hexDigits (width value : Nat) : (hexDigits width value).length = width := by
  induction width generalizing value with
  | zero => rfl
  | succ width ih => rw [hexDigits, List.length_append, ih, List.length_singleton]

/-- The digits are read as the number. -/
theorem mapM_hexDigits (width value : Nat) :
    ∃ digits, (hexDigits width value).mapM hexDigit? = some digits ∧
      hexValue digits = value % 16 ^ width := by
  induction width generalizing value with
  | zero => exact ⟨[], rfl, by simp [hexValue, Nat.mod_one]⟩
  | succ width ih =>
      obtain ⟨digits, read, same⟩ := ih (value / 16)
      refine ⟨digits ++ [value % 16], ?_, ?_⟩
      · rw [hexDigits, List.mapM_append, read]
        simp [hexDigit?_digitChar (value % 16) (Nat.mod_lt _ (by decide))]
      · have step : hexValue (digits ++ [value % 16]) = 16 * hexValue digits + value % 16 := by
          simp [hexValue]
        rw [step, same, pow_succ', Nat.mod_mul, Nat.add_comm]

theorem removeAll_of_not_mem {pattern : List Char} {first : Char} (starts : pattern.head? = some first)
    {text : List Char} (absent : first ∉ text) (fuel : Nat) : removeAll pattern fuel text = text := by
  induction fuel generalizing text with
  | zero => rfl
  | succ fuel ih =>
      cases text with
      | nil => rfl
      | cons character rest =>
          rw [List.mem_cons, not_or] at absent
          have other : pattern.isPrefixOf (character :: rest) = false := by
            cases pattern with
            | nil => cases starts
            | cons head tail =>
                rw [List.head?_cons, Option.some.injEq] at starts
                subst starts
                simp [List.isPrefixOf, absent.1]
          rw [removeAll, other, if_neg Bool.false_ne_true, ih absent.2]

/-- The text of an identifier without its hyphens. -/
theorem filter_uuidText (id : Uuid) :
    (uuidText id).toList.filter (fun character => decide (character ≠ '-')) = hexDigits 32 id := by
  have plain : ∀ part : List Char, (∀ character ∈ part, character ∈ hexDigits 32 id) →
      part.filter (fun character => decide (character ≠ '-')) = part := by
    intro part inside
    refine List.filter_eq_self.mpr fun character member => decide_eq_true ?_
    rintro rfl
    exact (mem_hexDigits (inside _ member)).1 (by simp)
  have start := plain ((hexDigits 32 id).take 8) fun _ => List.mem_of_mem_take
  have middle (from_ : Nat) := plain (((hexDigits 32 id).drop from_).take 4)
    fun _ member => List.mem_of_mem_drop (List.mem_of_mem_take member)
  have last := plain ((hexDigits 32 id).drop 20) fun _ => List.mem_of_mem_drop
  have hyphen (rest : List Char) : ('-' :: rest).filter (fun character => decide (character ≠ '-')) =
      rest.filter (fun character => decide (character ≠ '-')) := by simp
  have next (from_ : Nat) : ((hexDigits 32 id).drop from_).take 4 ++ (hexDigits 32 id).drop (from_ + 4) =
      (hexDigits 32 id).drop from_ := by
    rw [← List.drop_drop, List.take_append_drop]
  rw [uuidText, String.toList_ofList]
  simp only [List.filter_append, List.append_assoc, List.cons_append, hyphen, start, middle, last]
  rw [next 16, next 12, next 8, List.take_append_drop]

theorem mem_uuidText {id : Uuid} {character : Char} (member : character ∈ (uuidText id).toList) :
    character = '-' ∨ character ∈ hexDigits 32 id := by
  by_cases hyphen : character = '-'
  · exact .inl hyphen
  · rw [← filter_uuidText]
    exact .inr (List.mem_filter.mpr ⟨member, decide_eq_true hyphen⟩)

theorem intHex_hexDigits {id : Uuid} (small : id < 2 ^ 128) :
    intHex (hexDigits 32 id) = some (id : Int) := by
  obtain ⟨digits, read, same⟩ := mapM_hexDigits 32 id
  have whole : hexValue digits = id := by
    rw [same]
    exact Nat.mod_eq_of_lt (by simpa using small)
  have spaces : trim PythonText.isSpace (hexDigits 32 id) = hexDigits 32 id :=
    trim_of_none fun character member => (mem_hexDigits member).2.1
  have noMark : '_' ∉ hexDigits 32 id := fun member => (mem_hexDigits member).1 (by simp)
  obtain ⟨first, second, rest, shape⟩ : ∃ first second rest,
      hexDigits 32 id = first :: second :: rest := by
    have length := length_hexDigits 32 id
    match shape : hexDigits 32 id with
    | [] | [_] => rw [shape] at length; cases length
    | first :: second :: rest => exact ⟨first, second, rest, rfl⟩
  have noSign := (mem_hexDigits (shape ▸ List.mem_cons_self : first ∈ hexDigits 32 id)).1
  have noX := (mem_hexDigits (shape ▸ by simp : second ∈ hexDigits 32 id)).1
  have pieces : (first :: second :: rest).splitOn '_' = [first :: second :: rest] := by
    rw [← shape]
    exact List.splitOn_eq_singleton noMark
  have signed : (match first :: second :: rest with
      | '-' :: rest => (true, rest)
      | '+' :: rest => (false, rest)
      | rest => (false, rest)) = (false, first :: second :: rest) := by
    split
    next same => simp [(List.cons.inj same).1] at noSign
    next same => simp [(List.cons.inj same).1] at noSign
    next => rfl
  have unmarked : (match first :: second :: rest with
      | '0' :: mark :: later =>
          if mark = 'x' ∨ mark = 'X' then
            match later with
            | '_' :: later => later
            | later => later
          else first :: second :: rest
      | later => later) = first :: second :: rest := by
    split
    next mark later same =>
      obtain ⟨-, rfl, -⟩ : first = '0' ∧ second = mark ∧ rest = later := by simpa using same
      rw [if_neg]
      rintro (rfl | rfl) <;> simp at noX
    next => rfl
  rw [shape] at read
  unfold intHex
  rw [spaces, shape]
  dsimp only
  rw [signed]
  dsimp only
  rw [unmarked, pieces]
  simp [read, whole]

theorem uuidOf_uuidText {id : Uuid} (small : id < 2 ^ 128) : uuidOf (uuidText id) = some id := by
  have absent : ∀ character ∈ ['u', '{', '}'], character ∉ (uuidText id).toList := by
    intro character bad member
    rcases mem_uuidText member with rfl | inside
    · simp at bad
    · have other := (mem_hexDigits inside).1
      simp only [List.mem_cons, List.not_mem_nil, or_false, not_or] at bad other
      rcases bad with rfl | rfl | rfl
      · exact other.2.2.1 rfl
      · exact other.2.2.2.2.2.2.1 rfl
      · exact other.2.2.2.2.2.2.2 rfl
  have noU := absent 'u' (by simp)
  have braces : trim (fun character => character == '{' || character == '}') (uuidText id).toList =
      (uuidText id).toList := by
    refine trim_of_none fun character member => ?_
    have noOpen : character ≠ '{' := fun same => absent '{' (by simp) (same ▸ member)
    have noClose : character ≠ '}' := fun same => absent '}' (by simp) (same ▸ member)
    simp [noOpen, noClose]
  have urn : removeAll "urn:".toList (uuidText id).length (uuidText id).toList = (uuidText id).toList :=
    removeAll_of_not_mem (by decide : "urn:".toList.head? = some 'u') noU _
  have name (fuel : Nat) : removeAll "uuid:".toList fuel (uuidText id).toList = (uuidText id).toList :=
    removeAll_of_not_mem (by decide : "uuid:".toList.head? = some 'u') noU _
  simp only [uuidOf, urn, name, braces]
  rw [filter_uuidText, if_pos (length_hexDigits 32 id), intHex_hexDigits small]
  have bounds : (0 : Int) ≤ (id : Int) ∧ (id : Int) < 2 ^ 128 := by
    constructor
    · positivity
    · exact_mod_cast small
  simp only
  rw [if_pos bounds, Int.toNat_natCast]

/-! ## What was sealed is opened -/

/-- The payload as it is read. -/
def Issue.data (box : SecretBox) (issue : Issue) : List (String × Value) :=
  (issue.payload box).map fun entry => (entry.1, (entry.2.field entry.1).2.2)

/-- An identifier has 128 bits and a nonce 12 bytes. -/
structure Issue.Formed (issue : Issue) : Prop where
  domainId : issue.domainId < 2 ^ 128
  nonce : issue.nonce.length = 12

/-- What the return of an issue says. -/
def Issue.returned (issue : Issue) (now : Rat) : Return where
  domainId := issue.domainId
  redirectUri := issue.redirectUri
  state := issue.state
  expired := decide ((issue.expires : Rat) < now)

@[simp]
theorem field_text (key value : String) : ((Item.text value).field key).2.2 = .str value := rfl

@[simp]
theorem field_integer (key : String) (value : Int) :
    ((Item.integer value).field key).2.2 = (Scalar.integer value).read := rfl

@[simp]
theorem textOf_none : textOf none = none := rfl

@[simp]
theorem textOf_str (value : String) : textOf (some (.str value)) = some value := rfl

@[simp]
theorem textOf_ofOption (key : String) (value : Option String) :
    textOf (some ((Item.ofOption value).field key).2.2) = value := by
  cases value <;> rfl

theorem openReturnState_of_data {box : SecretBox} (lawful : box.Lawful)
    (available : box.available = true) (runtime : PythonRuntime) {issue : Issue}
    (formed : issue.Formed) {value : String} (now : Rat)
    (unsealed : unsealValue box value statePurpose = some (issue.data box)) :
    openReturnState box runtime value now = .ok (some (issue.returned now)) := by
  obtain ⟨domainId, redirectUri, state, isPrivate, expires, nonce⟩ := issue
  have identifier : uuidOf (uuidText domainId) = some domainId := uuidOf_uuidText formed.domainId
  have opened (text : String) :
      decrypt box (encrypt box text statePurpose nonce) statePurpose = .ok text :=
    decrypt_encrypt lawful text statePurpose formed.nonce
  have number : overflows (Scalar.integer expires).read = false ∧
      pythonInt runtime (Scalar.integer expires).read = some expires := by
    simp [overflows, Scalar.read, pythonInt, DoubleRounding.truncate_int]
  rw [openReturnState, if_neg (by simp [available]), unsealed]
  cases isPrivate <;> cases redirectUri <;>
      simp [Issue.data, Issue.payload, Issue.returned, member?, List.lookup_cons, pythonStr,
        identifier, number, opened]

/-! ## The length of what was sealed -/

/-- The number of bytes in UTF-8. -/
def size (text : List Char) : Nat := (text.flatMap String.utf8EncodeChar).length

@[simp]
theorem size_nil : size [] = 0 := rfl

@[simp]
theorem size_cons (character : Char) (rest : List Char) :
    size (character :: rest) = character.utf8Size + size rest := by
  rw [size, List.flatMap_cons, List.length_append, String.length_utf8EncodeChar, size]

@[simp]
theorem size_append (first second : List Char) : size (first ++ second) = size first + size second := by
  rw [size, List.flatMap_append, List.length_append, size, size]

theorem length_encodeUtf8 (text : String) : (encodeUtf8 text).length = size text.toList := rfl

/-- ASCII without control characters. -/
def Printed (text : List Char) : Prop :=
  ∀ character ∈ text, 32 ≤ character.toNat ∧ character.toNat < 128

theorem utf8Size_of_ascii {character : Char} (ascii : character.toNat < 128) :
    character.utf8Size = 1 := by
  rw [Char.utf8Size_eq_one_iff, UInt32.le_iff_toNat_le]
  exact Nat.le_of_lt_succ ascii

theorem size_of_printed {text : List Char} (printed : Printed text) : size text = text.length := by
  induction text with
  | nil => rfl
  | cons character rest ih =>
      rw [Printed, List.forall_mem_cons] at printed
      rw [size_cons, utf8Size_of_ascii printed.1.2, ih printed.2, List.length_cons, Nat.add_comm]

/-- Only quotes and backslashes are escaped. -/
theorem size_rawEscape {character : Char} (printable : 32 ≤ character.toNat) :
    size (rawEscape character) ≤ 2 * character.utf8Size := by
  have positive := character.utf8Size_pos
  unfold rawEscape
  split
  next letter short =>
    have letters : letter = '"' ∨ letter = '\\' ∨ letter = 'b' ∨ letter = 'f' ∨ letter = 'n' ∨
        letter = 'r' ∨ letter = 't' := by
      unfold shortEscape? at short
      split_ifs at short <;> simp_all [eq_comm]
    have ascii : letter.utf8Size = 1 := by
      rcases letters with rfl | rfl | rfl | rfl | rfl | rfl | rfl <;> rfl
    have slash : '\\'.utf8Size = 1 := by decide
    simp only [size_cons, size_nil, ascii, slash]
    omega
  next =>
    rw [if_neg (by omega), size_cons, size_nil]
    omega

theorem size_rawQuoted {text : String} (printable : ∀ character ∈ text.toList, 32 ≤ character.toNat) :
    size (rawQuoted text) ≤ 2 * (encodeUtf8 text).length + 2 := by
  have inside : size (text.toList.flatMap rawEscape) ≤ 2 * size text.toList := by
    generalize text.toList = characters at printable
    induction characters with
    | nil => simp
    | cons character rest ih =>
        rw [List.forall_mem_cons] at printable
        have first := size_rawEscape printable.1
        have later := ih printable.2
        rw [List.flatMap_cons, size_append, size_cons]
        omega
  have quote_ : '"'.utf8Size = 1 := by decide
  rw [rawQuoted, length_encodeUtf8, size_append, size_cons, size_cons, size_nil, quote_]
  omega

theorem length_b64 (data : List UInt8) : (b64 data).length = (4 * data.length + 2) / 3 := by
  rw [b64_eq, String.length_ofList, List.length_map, Base64.length_encode]

theorem printed_uuidText (id : Uuid) : Printed (uuidText id).toList := by
  intro character member
  rcases mem_uuidText member with rfl | inside
  · decide
  · exact (mem_hexDigits inside).2.2

theorem length_uuidText (id : Uuid) : (uuidText id).toList.length = 36 := by
  have length := length_hexDigits 32 id
  rw [uuidText, String.toList_ofList]
  simp [length]

/-- The encrypted address has no character that is escaped, and its length is bounded. -/
theorem printed_encrypt (box : SecretBox) (plaintext purpose : String) (nonce : List UInt8) :
    Printed (encrypt box plaintext purpose nonce).toList := by
  have digits : ∀ value < 64, 32 ≤ (Base64.digit value).toNat ∧ (Base64.digit value).toNat < 128 := by
    decide
  intro character member
  rw [toList_encrypt, List.mem_append, b64encode, List.mem_append] at member
  rcases member with start | digit | pad
  · have front : ∀ character ∈ ['v', '1', ':'], 32 ≤ character.toNat ∧ character.toNat < 128 :=
      forall_of_all (by decide)
    exact front character start
  · obtain ⟨value, inside, rfl⟩ := List.mem_map.mp digit
    exact digits value (Base64.unpack_lt _ value inside)
  · rw [List.eq_of_mem_replicate pad]
    decide

theorem length_encrypt {box : SecretBox} (lawful : box.Lawful) (plaintext purpose : String)
    {nonce : List UInt8} (drawn : nonce.length = 12) (short : (encodeUtf8 plaintext).length ≤ 512) :
    (encrypt box plaintext purpose nonce).toList.length ≤ 726 := by
  have length := Base64.length_encode (nonce ++ box.aesEncrypt purpose nonce (encodeUtf8 plaintext))
  rw [List.length_append, lawful.encrypt_length, drawn] at length
  rw [toList_encrypt, List.length_append, b64encode, List.length_append, Base64.padding,
    List.length_replicate]
  have front : ['v', '1', ':'].length = 3 := rfl
  omega

theorem size_integer {value : Int} (small : |value| < 10 ^ 12) :
    size (Scalar.integer value).written ≤ 13 := by
  have digits (number : Nat) (below : number < 10 ^ 12) : size (Nat.toDigits 10 number) ≤ 12 := by
    have printed : Printed (Nat.toDigits 10 number) := fun character member => by
      have digit := isDigit_toDigits number character member
      rw [Char.isDigit_iff_toNat] at digit
      have zero : '0'.toNat = 48 := rfl
      have nine : '9'.toNat = 57 := rfl
      omega
    rw [size_of_printed printed]
    exact (Nat.length_toDigits_le_iff (by decide) (by decide)).mpr below
  have bounds := abs_lt.mp small
  cases value with
  | ofNat number =>
      have below := digits number (by
        rw [Int.ofNat_eq_natCast] at bounds
        omega)
      rw [Scalar.written]
      omega
  | negSucc number =>
      have below := digits (number + 1) (by omega)
      have dash : '-'.utf8Size = 1 := by decide
      rw [Scalar.written, size_cons, dash]
      omega

/-- What can be sealed: within the limits of `prepare_connect` and of a `datetime`. -/
structure Issue.Limited (issue : Issue) : Prop extends issue.Formed where
  redirectUri : ∀ value ∈ issue.redirectUri, (encodeUtf8 value).length ≤ 512 ∧
    ∀ character ∈ value.toList, 32 ≤ character.toNat
  state : ∀ value ∈ issue.state, (encodeUtf8 value).length ≤ 512 ∧
    ∀ character ∈ value.toList, 32 ≤ character.toNat
  expires : |issue.expires| < 10 ^ 12

theorem size_text {text : String} {bound : Nat} (short : (encodeUtf8 text).length ≤ bound)
    (printable : ∀ character ∈ text.toList, 32 ≤ character.toNat) (key : String) :
    size ((Item.text text).field key).2.1 ≤ 2 * bound + 2 := by
  have quoted := size_rawQuoted printable
  change size (rawQuoted text) ≤ _
  omega

theorem size_ofOption {value : Option String}
    (limited : ∀ text ∈ value, (encodeUtf8 text).length ≤ 512 ∧
      ∀ character ∈ text.toList, 32 ≤ character.toNat) (key : String) :
    size ((Item.ofOption value).field key).2.1 ≤ 1026 := by
  cases value with
  | none =>
      change size ['n', 'u', 'l', 'l'] ≤ 1026
      decide
  | some text =>
      have bounds := limited text rfl
      exact size_text bounds.1 bounds.2 key

theorem size_printed {text : String} {bound : Nat} (printed : Printed text.toList)
    (short : text.toList.length ≤ bound) (key : String) :
    size ((Item.text text).field key).2.1 ≤ 2 * bound + 2 :=
  size_text (by rwa [length_encodeUtf8, size_of_printed printed])
    (fun character member => (printed character member).1) key

/-- Four members whose keys are single letters. -/
theorem size_payload {first second third fourth : Field}
    (keys : ∀ field ∈ [first, second, third, fourth], size (quoted field.1) = 3) :
    size ('{' :: joinFields [first, second, third, fourth] ++ ['}']) =
      size first.2.1 + size second.2.1 + size third.2.1 + size fourth.2.1 + 21 := by
  simp only [List.forall_mem_cons, List.not_mem_nil, false_implies, implies_true, and_true] at keys
  obtain ⟨firstKey, firstText, _⟩ := first
  obtain ⟨secondKey, secondText, _⟩ := second
  obtain ⟨thirdKey, thirdText, _⟩ := third
  obtain ⟨fourthKey, fourthText, _⟩ := fourth
  obtain ⟨one, two, three, four⟩ := keys
  have brace : '{'.utf8Size = 1 := by decide
  have closing : '}'.utf8Size = 1 := by decide
  have comma : ','.utf8Size = 1 := by decide
  have colon : ':'.utf8Size = 1 := by decide
  simp only [joinFields, size_append, size_cons, size_nil, one, two, three, four, brace, closing,
    comma, colon, List.cons_append]
  omega

theorem sealed_length {box : SecretBox} (lawful : box.Lawful) {issue : Issue}
    (limited : issue.Limited) : (issue.sealed box).length ≤ 4096 := by
  have key : ∀ key ∈ ["d", "e", "s", "x", "r"], size (quoted key) = 3 := by decide
  have domain := size_printed (printed_uuidText issue.domainId) (length_uuidText _).le "d"
  have expires := size_integer limited.expires
  have state := size_ofOption limited.state "s"
  have body : ∀ last : String × Item, last.1 ∈ ["x", "r"] → size (last.2.field last.1).2.1 ≤ 1454 →
      (sealValue box [("d", .text (uuidText issue.domainId)), ("e", .integer issue.expires),
        ("s", .ofOption issue.state), last] statePurpose).length ≤ 4096 := by
    intro last known short
    have lastKey := key (last.2.field last.1).1 (by
      obtain ⟨name, item⟩ := last
      cases item <;> simp_all [Item.field])
    have whole := size_payload (by
      simp only [List.forall_mem_cons, List.not_mem_nil, false_implies, implies_true, and_true]
      refine ⟨key "d" (by simp), key "e" (by simp), ?_, lastKey⟩
      cases issue.state <;> exact key "s" (by simp) :
      ∀ field ∈ [(Item.text (uuidText issue.domainId)).field "d", (Item.integer issue.expires).field "e",
        (Item.ofOption issue.state).field "s", last.2.field last.1], size (quoted field.1) = 3)
    have number : size ((Item.integer issue.expires).field "e").2.1 ≤ 13 := expires
    have length : (encodeUtf8 (payloadText [("d", .text (uuidText issue.domainId)),
        ("e", .integer issue.expires), ("s", .ofOption issue.state), last])).length ≤ 2588 := by
      rw [length_encodeUtf8, payloadText, String.toList_ofList, List.map_cons, List.map_cons,
        List.map_cons, List.map_cons, List.map_nil, whole]
      omega
    have dot : ".".length = 1 := rfl
    rw [sealValue, String.length_append, String.length_append, sealedBody, length_b64, length_b64,
      lawful.mac_length, dot]
    omega
  rw [Issue.sealed, Issue.payload]
  split
  next redirectUri private_ same =>
    refine body _ (by simp) ?_
    exact size_printed (printed_encrypt box redirectUri statePurpose issue.nonce)
      (length_encrypt lawful redirectUri statePurpose limited.nonce (limited.redirectUri _ same).1) "x"
  next =>
    refine body _ (by simp) ?_
    have address := size_ofOption limited.redirectUri "r"
    exact address.trans (by decide)

/-! ## What the requests let through -/

section Requests

variable {tables : UnicodeTables}
  {setup : Database → Domain → Except (Option String) (Option String × Option String)}

theorem redirectUriProblem_none {uri : String}
    (accepted : redirectUriProblem ⟨splitParts tables, setup⟩ uri = none) :
    (encodeUtf8 uri).length ≤ 512 ∧ (∀ character ∈ uri.toList, 33 ≤ character.toNat) ∧
      '#' ∉ uri.toList ∧ ∃ parts, urlsplit tables uri = some parts ∧ parts.scheme = "https" ∧
        ¬ ApplyUrl.isFalsy (parts.hostname tables) = true := by
  unfold redirectUriProblem httpsUrlProblem at accepted
  split_ifs at accepted with long control
  split at accepted
  next => cases accepted
  next found split =>
    split_ifs at accepted with scheme host user fragment
    rw [List.any_eq_true] at control
    refine ⟨Nat.le_of_not_lt long, fun character member => ?_, fun inside => fragment (.inr inside), ?_⟩
    · by_contra low
      exact control ⟨character, member, by simp only [Bool.or_eq_true, decide_eq_true_eq]; omega⟩
    · obtain ⟨parts, whole, cut⟩ := Option.bind_eq_some_iff.mp split
      split at cut
      next => cases cut
      next =>
        rw [Option.some.injEq] at cut
        subst cut
        dsimp only at scheme host
        rw [ne_eq, not_not] at scheme
        exact ⟨parts, whole, scheme, by rwa [ApplyUrl.isFalsy]⟩

theorem stateProblem_none {state : String} (accepted : stateProblem state = none) :
    (encodeUtf8 state).length ≤ 512 ∧ ∀ character ∈ state.toList, 32 ≤ character.toNat := by
  unfold stateProblem at accepted
  split_ifs at accepted with long control
  rw [List.any_eq_true] at control
  refine ⟨Nat.le_of_not_lt long, fun character member => ?_⟩
  by_contra low
  exact control ⟨character, member, by simp only [Bool.or_eq_true, decide_eq_true_eq]; omega⟩

end Requests

/-! ## The way back -/

section WayBack

variable {tables : UnicodeTables}

theorem mem_of_mem_breakAt {separator character : Char} {text : List Char}
    (member : character ∈ (breakAt separator text).1 ∨ character ∈ (breakAt separator text).2) :
    character ∈ text := by
  rcases member with front | back
  · exact (List.takeWhile_prefix _).subset front
  · exact (List.dropWhile_suffix _).subset (List.mem_of_mem_drop back)

theorem not_mem_breakAt (separator : Char) (text : List Char) : separator ∉ (breakAt separator text).1 := by
  intro member
  simpa using List.mem_takeWhile_imp member

/-- The query that is sent back. -/
def addedQuery (query : String) (state error : Option String) : String :=
  if query.isEmpty then urlencode (extraParams state error)
  else query ++ "&" ++ urlencode (extraParams state error)

theorem parseQsl_addedQuery (query : String) (state error : Option String) :
    parseQsl (addedQuery query state error) = parseQsl query ++ extraParams state error := by
  unfold addedQuery
  split_ifs with nothing
  · rw [String.isEmpty_iff] at nothing
    rw [nothing, parseQsl_urlencode]
    rfl
  · rw [parseQsl_append, parseQsl_urlencode]

theorem addedQuery_ne_empty {query : String} {state error : Option String}
    (extra : extraParams state error ≠ []) : addedQuery query state error ≠ "" := by
  intro nothing
  have pairs := parseQsl_addedQuery query state error
  rw [nothing] at pairs
  have none : parseQsl "" = [] := rfl
  rw [none] at pairs
  exact extra (List.append_eq_nil_iff.mp pairs.symm).2

theorem mem_addedQuery {query : String} {state error : Option String} {character : Char}
    (member : character ∈ (addedQuery query state error).toList) :
    character ∈ query.toList ∨ ApplyUrl.isPlain character = true := by
  have plain := ApplyUrl.Plain.urlencode (extraParams state error) character
  unfold addedQuery at member
  split_ifs at member with nothing
  · exact .inr (plain member)
  · rw [String.toList_append, String.toList_append, List.mem_append, List.mem_append] at member
    rcases member with (before | mark) | after
    · exact .inl before
    · rw [show "&".toList = ['&'] from rfl, List.mem_singleton] at mark
      subst mark
      exact .inr rfl
    · exact .inr (plain after)

theorem head_breakAt {separator character : Char} {text : List Char}
    (starts : character ∈ (breakAt separator text).1.head?) : character ∈ text.head? := by
  obtain ⟨rest, joined⟩ := List.takeWhile_prefix (fun next => decide (next ≠ separator)) (l := text)
  rw [← joined, List.head?_append]
  exact Option.or_eq_some_iff.mpr (.inl starts)

/-- A path is empty or starts with a slash. -/
theorem rooted_path {tail : List Char} (delimited : ∀ character ∈ tail.head?, isDelimiter character = true)
    (noHash : '#' ∉ tail) :
    ((String.ofList (breakAt '?' tail).1).isEmpty ||
      startsWith "/" (String.ofList (breakAt '?' tail).1)) = true := by
  rw [Bool.or_eq_true, String.isEmpty_iff, startsWith, String.toList_ofList]
  cases front : (breakAt '?' tail).1 with
  | nil => exact .inl rfl
  | cons character rest =>
      have inside : character ∈ (breakAt '?' tail).1 := by simp [front]
      have starts : character ∈ (breakAt '?' tail).1.head? := by simp [front]
      have stop := delimited character (head_breakAt starts)
      simp only [isDelimiter, Bool.or_eq_true, beq_iff_eq] at stop
      rcases stop with (rfl | rfl) | rfl
      · refine .inr ?_
        rw [String.toList_ofList]
        rfl
      · exact absurd inside (not_mem_breakAt '?' tail)
      · exact absurd (mem_of_mem_breakAt (.inl inside)) noHash

theorem toList_urlunsplit (parts : SplitResult)
    (rooted : (parts.path.isEmpty || startsWith "/" parts.path) = true) (queried : parts.query ≠ "")
    (fragment : parts.fragment = "") :
    (urlunsplit parts).toList = parts.scheme.toList ++ ':' :: '/' :: '/' ::
      (parts.netloc.toList ++ (parts.path.toList ++ '?' :: parts.query.toList)) := by
  unfold urlunsplit
  rw [← String.isEmpty_iff] at fragment
  rw [ne_eq, ← String.isEmpty_iff] at queried
  dsimp only
  rw [if_pos rooted, if_neg queried, if_pos fragment]
  simp

/-- The URL with its scheme in lower case and another query. -/
theorem requeried {base name netloc tail query : List Char}
    (base_ : ApplyUrl.Base tables base name netloc tail)
    (plain : ∀ character ∈ query, isRemoved character = false) :
    ApplyUrl.Base tables
      ("https".toList ++ ':' :: '/' :: '/' :: (netloc ++ ((breakAt '?' tail).1 ++ '?' :: query)))
      "https".toList netloc ((breakAt '?' tail).1 ++ '?' :: query) where
  located := by
    refine ⟨rfl, ⟨'h', "ttps".toList, rfl, by decide⟩, forall_of_all (by decide), base_.located.netloc,
      fun character starts => ?_⟩
    rw [List.head?_append] at starts
    rcases Option.or_eq_some_iff.mp starts with front | ⟨-, mark⟩
    · exact base_.located.tail character (head_breakAt front)
    · rw [List.head?_cons, Option.some.injEq] at mark
      rw [← mark]
      rfl
  scheme := by decide
  hosted := base_.hosted
  ok := base_.ok
  plain := by
    have letters : ∀ character ∈ "https".toList, isRemoved character = false :=
      forall_of_all (by decide)
    have kept (character : Char) (inside : character ∈ netloc ∨ character ∈ tail) :
        isRemoved character = false := by
      refine base_.plain character ?_
      rw [base_.located.text]
      rcases inside with host | after <;> simp [*]
    intro character member
    simp only [List.mem_append, List.mem_cons] at member
    rcases member with name | rfl | rfl | rfl | host | front | rfl | back
    · exact letters character name
    · rfl
    · rfl
    · rfl
    · exact kept character (.inl host)
    · exact kept character (.inr (mem_of_mem_breakAt (.inl front)))
    · rfl
    · exact plain character back

/-- The address of the application with the state added to its query. -/
def LeadsBack (tables : UnicodeTables) (redirectUri : String) (state error : Option String)
    (url : String) : Prop :=
  ∃ before after, urlsplit tables redirectUri = some before ∧ urlsplit tables url = some after ∧
    after.scheme = "https" ∧ after.scheme = before.scheme ∧ after.netloc = before.netloc ∧
    after.hostname tables = before.hostname tables ∧ after.path = before.path ∧
    before.query.toList <+: after.query.toList ∧ after.fragment = "" ∧
    parseQsl after.query = parseQsl before.query ++ extraParams state error

theorem prefix_addedQuery (query : String) (state error : Option String) :
    query.toList <+: (addedQuery query state error).toList := by
  unfold addedQuery
  split_ifs with nothing
  · rw [String.isEmpty_iff] at nothing
    rw [nothing]
    exact List.nil_prefix
  · rw [String.toList_append, String.toList_append, List.append_assoc]
    exact List.prefix_append _ _

theorem leadsBack {uri : String} {parts : SplitResult} (split : urlsplit tables uri = some parts)
    (printed : ∀ character ∈ uri.toList, 33 ≤ character.toNat) (noHash : '#' ∉ uri.toList)
    (scheme : parts.scheme = "https") (host : ¬ ApplyUrl.isFalsy (parts.hostname tables) = true)
    (state error : Option String) :
    ∃ url, backToApplication tables uri state error = some url ∧
      LeadsBack tables uri state error url := by
  have kept (character : Char) (member : character ∈ uri.toList) : isRemoved character = false := by
    have low := printed character member
    rw [Bool.eq_false_iff]
    intro removed
    simp only [isRemoved, Bool.or_eq_true, beq_iff_eq] at removed
    rcases removed with (rfl | rfl) | rfl <;> exact absurd low (by decide)
  have clean : cleaned uri.toList = uri.toList := by
    refine cleaned_eq (fun character starts => ?_) kept
    have low := printed character (List.mem_of_mem_head? starts)
    rw [isStripped, decide_eq_false_iff_not]
    omega
  obtain ⟨name, netloc, tail, base, same⟩ := ApplyUrl.exists_base split clean kept scheme host
  have inTail {character : Char} (member : character ∈ tail) : character ∈ uri.toList := by
    rw [base.located.text]
    simp [member]
  have whole : breakAt '#' tail = (tail, []) :=
    breakAt_of_not_mem fun member => noHash (inTail member)
  have fragment : parts.fragment = "" := by
    rw [same, assemble, whole]
  have pathOf : parts.path = String.ofList (breakAt '?' tail).1 := by
    rw [same, assemble, whole]
  have queryOf : parts.query = String.ofList (breakAt '?' tail).2 := by
    rw [same, assemble, whole]
  by_cases extra : extraParams state error = []
  · refine ⟨uri, by rw [backToApplication, split, Option.map_some, if_pos extra], ?_⟩
    refine ⟨parts, parts, split, split, scheme, rfl, rfl, rfl, rfl, List.prefix_refl _, fragment, ?_⟩
    rw [extra, List.append_nil]
  · have inQuery {character : Char} (member : character ∈ (addedQuery parts.query state error).toList) :
        isRemoved character = false ∧ character ≠ '#' := by
      rcases mem_addedQuery member with before | plain
      · rw [queryOf, String.toList_ofList] at before
        have inside := inTail (mem_of_mem_breakAt (.inr before))
        exact ⟨kept character inside, fun hash => noHash (hash ▸ inside)⟩
      · refine ⟨ApplyUrl.isRemoved_of_isPlain plain, ?_⟩
        rintro rfl
        cases plain
    have placed := requeried base fun character member => (inQuery member).1
    have text : (urlunsplit { parts with
          query := addedQuery parts.query state error, fragment := "" }).toList =
        "https".toList ++ ':' :: '/' :: '/' :: (netloc ++ ((breakAt '?' tail).1 ++
          '?' :: (addedQuery parts.query state error).toList)) := by
      have rooted := rooted_path base.located.tail fun member => noHash (inTail member)
      rw [← pathOf] at rooted
      have hosted : parts.netloc = String.ofList netloc := by
        rw [same]
        rfl
      rw [toList_urlunsplit { parts with query := addedQuery parts.query state error, fragment := "" }
        rooted (addedQuery_ne_empty extra) rfl]
      simp only [scheme, hosted, pathOf, String.toList_ofList]
    rw [← text] at placed
    obtain ⟨path, query, noFragment⟩ := ApplyUrl.assemble_query "https".toList netloc
      (not_mem_breakAt '?' tail) (fun member => noHash (inTail (mem_of_mem_breakAt (.inl member))))
      fun member => (inQuery member).2 rfl
    refine ⟨_, by rw [backToApplication, split, Option.map_some, if_neg extra]; rfl,
      ⟨parts, _, split, placed.urlsplit, rfl, ?_, ?_, ?_, ?_, ?_, noFragment, ?_⟩⟩
    · rw [scheme]
      rfl
    · rw [same]
      rfl
    · refine ApplyUrl.hostname_congr ?_
      rw [same]
      rfl
    · rw [path, pathOf]
    · rw [query, String.toList_ofList]
      exact prefix_addedQuery parts.query state error
    · rw [query, String.ofList_toList]
      exact parseQsl_addedQuery parts.query state error

end WayBack

/-! ## Only what was sealed is opened -/

/-- A value whose tag verifies was sealed with one of the issues: nobody else has the key. -/
def Unforged (box : SecretBox) (made : Set Issue) (value : String) : Prop :=
  ∀ body tag, partition '.' value = some (body, tag) →
    unb64 tag = some (box.mac statePurpose (encodeUtf8 body)) →
    ∃ issue ∈ made, body = sealedBody (issue.payload box)

theorem payload_ne_nil (box : SecretBox) (issue : Issue) : issue.payload box ≠ [] := by
  rw [Issue.payload]
  exact List.cons_ne_nil _ _

theorem unsealValue_unforged {box : SecretBox} {made : Set Issue} {value : String}
    {data : List (String × Value)} (unforged : Unforged box made value)
    (unsealed : unsealValue box value statePurpose = some data) :
    ∃ issue ∈ made, data = issue.data box := by
  unfold unsealValue at unsealed
  split at unsealed
  next => cases unsealed
  next body mac cut =>
    split_ifs at unsealed with long ascii
    split at unsealed
    next => cases unsealed
    next tag decoded =>
      split_ifs at unsealed with verifies
      rw [ne_eq, not_not] at verifies
      subst verifies
      obtain ⟨issue, member, rfl⟩ := unforged body mac cut decoded
      rw [sealedBody, unb64_b64, Option.bind_some, decodeUtf8_encodeUtf8, Option.bind_some,
        read_payloadText (payload_ne_nil box issue)] at unsealed
      exact ⟨issue, member, (Option.some.inj unsealed).symm⟩

theorem openReturnState_unforged {box : SecretBox} (lawful : box.Lawful) {runtime : PythonRuntime}
    {made : Set Issue} (formed : ∀ issue ∈ made, issue.Formed) {value : String} {now : Rat}
    {found : Return} (unforged : Unforged box made value)
    (accepted : openReturnState box runtime value now = .ok (some found)) :
    ∃ issue ∈ made, found = issue.returned now := by
  have whole := accepted
  unfold openReturnState at accepted
  split_ifs at accepted with missing
  · cases accepted
  · split at accepted
    next => cases accepted
    next data unsealed =>
      obtain ⟨issue, member, rfl⟩ := unsealValue_unforged unforged unsealed
      have available : box.available = true := Bool.eq_true_of_not_eq_false missing
      rw [openReturnState_of_data lawful available runtime (formed issue member) now unsealed] at whole
      cases whole
      exact ⟨issue, member, rfl⟩

/-! ## The round trip -/

/-- What `prepare_connect` lets through to the sealing. -/
structure Issue.Accepted (environment : ConnectEnvironment) (issue : Issue) : Prop
    extends issue.Formed where
  redirectUri : ∀ value ∈ issue.redirectUri, redirectUriProblem environment value = none
  state : ∀ value ∈ issue.state, stateProblem value = none
  /-- The timestamps of `datetime`. -/
  expires : |issue.expires| < 10 ^ 12

theorem Issue.Accepted.limited {tables : UnicodeTables}
    {setup : Database → Domain → Except (Option String) (Option String × Option String)}
    {issue : Issue} (accepted : issue.Accepted ⟨splitParts tables, setup⟩) : issue.Limited where
  toFormed := accepted.toFormed
  redirectUri := fun value member => by
    obtain ⟨short, printed, -⟩ := redirectUriProblem_none (accepted.redirectUri value member)
    exact ⟨short, fun character inside => (by decide : 32 ≤ 33).trans (printed character inside)⟩
  state := fun value member => stateProblem_none (accepted.state value member)
  expires := accepted.expires

theorem openReturnState_sealed {box : SecretBox} (lawful : box.Lawful)
    (available : box.available = true) (runtime : PythonRuntime) {issue : Issue}
    (limited : issue.Limited) (now : Rat) :
    openReturnState box runtime (issue.sealed box) now = .ok (some (issue.returned now)) := by
  refine openReturnState_of_data lawful available runtime limited.toFormed now ?_
  rw [Issue.sealed, unsealValue_sealValue (payload_ne_nil box issue) (sealed_length lawful limited)]
  rfl

/-- The state that the provider carries comes back as what was sealed, and as nothing else, and
leads to the application's own address. -/
theorem connect_return {box : SecretBox} (lawful : box.Lawful) (available : box.available = true)
    (tables : UnicodeTables) (runtime : PythonRuntime)
    (setup : Database → Domain → Except (Option String) (Option String × Option String)) :
    (∀ (issue : Issue) (returnUrl : String), issue.Accepted ⟨splitParts tables, setup⟩ →
      returnUrl ≠ "" → ∃ value, returnParams box (some returnUrl) issue =
        [("redirect_uri", returnUrl), ("state", value)] ∧ value.length ≤ 4096 ∧
        ∀ now, openReturnState box runtime value now = .ok (some (issue.returned now))) ∧
    (∀ redirectUri, redirectUriProblem ⟨splitParts tables, setup⟩ redirectUri = none →
      ∀ state error, ∃ url, backToApplication tables redirectUri state error = some url ∧
        LeadsBack tables redirectUri state error url) ∧
    ∀ (made : Set Issue), (∀ issue ∈ made, issue.Formed) → ∀ value, Unforged box made value →
      ∀ now found, openReturnState box runtime value now = .ok (some found) →
        ∃ issue ∈ made, found = issue.returned now := by
  refine ⟨fun issue returnUrl accepted some_ => ?_, fun redirectUri accepted state error => ?_,
    fun made formed value unforged now found opened =>
      openReturnState_unforged lawful formed unforged opened⟩
  · refine ⟨issue.sealed box, ?_, sealed_length lawful accepted.limited, fun now =>
      openReturnState_sealed lawful available runtime accepted.limited now⟩
    have filled : returnUrl.isEmpty = false := by
      rw [Bool.eq_false_iff, ne_eq, String.isEmpty_iff]
      exact some_
    rw [returnParams]
    exact if_pos ⟨filled, available⟩
  · obtain ⟨-, printed, noHash, parts, split, scheme, host⟩ := redirectUriProblem_none accepted
    exact leadsBack split printed noHash scheme host state error

/-! ### A private return -/

/-- A box that hides nothing. -/
def sampleBox : SecretBox where
  available := true
  mac := fun purpose message => ((encodeUtf8 purpose ++ message).take 32).rightpad 32 0
  aesEncrypt := fun _ _ plain => plain ++ List.replicate 16 0
  aesDecrypt := fun _ _ data => some (data.take (data.length - 16))

theorem sampleBox_lawful : sampleBox.Lawful where
  mac_length := fun purpose message => by
    simp only [sampleBox, List.rightpad, List.length_append, List.length_take, List.length_replicate]
    omega
  encrypt_length := fun _ _ plain => by simp [sampleBox]
  decrypt_encrypt := fun _ _ plain => by simp [sampleBox]

def sampleSetup : Database → Domain → Except (Option String) (Option String × Option String) :=
  fun _ _ => .error none

def sampleIssue : Issue where
  domainId := 7
  redirectUri := some "https://a.example/x?y=1"
  state := some "\"é"
  isPrivate := true
  expires := 1000
  nonce := List.replicate 12 1

theorem sampleIssue_accepted :
    sampleIssue.Accepted ⟨splitParts ApplyUrl.asciiTables, sampleSetup⟩ where
  domainId := by decide
  nonce := by decide
  redirectUri := by
    rintro value ⟨⟩
    decide +kernel
  state := by
    rintro value ⟨⟩
    decide +kernel
  expires := by decide

theorem sample_connect_return :
    (∃ value, returnParams sampleBox (some "https://c.example/back") sampleIssue =
      [("redirect_uri", "https://c.example/back"), ("state", value)] ∧ value.length ≤ 4096 ∧
      ∀ now, openReturnState sampleBox sampleRuntime value now =
        .ok (some (sampleIssue.returned now))) ∧
    (∃ url, backToApplication ApplyUrl.asciiTables "https://a.example/x?y=1" (some "\"é") none =
      some url ∧ LeadsBack ApplyUrl.asciiTables "https://a.example/x?y=1" (some "\"é") none url) ∧
    ∀ found, openReturnState sampleBox sampleRuntime (sampleIssue.sealed sampleBox) 0 =
      .ok (some found) → found = sampleIssue.returned 0 := by
  obtain ⟨sealed, back, opened⟩ := connect_return sampleBox_lawful rfl ApplyUrl.asciiTables
    sampleRuntime sampleSetup
  refine ⟨sealed sampleIssue _ sampleIssue_accepted (by decide),
    back _ (sampleIssue_accepted.redirectUri _ rfl) _ _, fun found accepted => ?_⟩
  have unforged : Unforged sampleBox {sampleIssue} (sampleIssue.sealed sampleBox) := by
    intro body tag cut _
    have parts : partition '.' (sampleIssue.sealed sampleBox) =
        some (sealedBody (sampleIssue.payload sampleBox), b64 (sampleBox.mac statePurpose
          (encodeUtf8 (sealedBody (sampleIssue.payload sampleBox))))) :=
      partition_append (dot_not_mem_b64 _)
    have same := parts.symm.trans cut
    rw [Option.some.injEq, Prod.mk.injEq] at same
    exact ⟨sampleIssue, rfl, same.1.symm⟩
  obtain ⟨issue, rfl, same⟩ := opened {sampleIssue}
    (fun issue member => member ▸ sampleIssue_accepted.toFormed) _ unforged 0 found accepted
  exact same

end CustomDomain.ConnectReturn
