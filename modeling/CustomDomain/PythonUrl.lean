import CustomDomain.PythonIpAddress
import Mathlib.Data.List.SplitBy
import Mathlib.Tactic.Common

/-!
# URLs as Python splits them

`urlsplit`, `urlunsplit`, `quote` and `urlencode` of Python's `urllib.parse`, and reading a
query back.  A URL is taken apart from the left: the scheme, the network location, then the
fragment and the query; an empty query or fragment leaves no trace in the result.
-/

namespace PythonUrl

open PythonText

/-- The Unicode tables behind a host name: the normal form NFKC and `str.lower`. -/
structure UnicodeTables where
  nfkc : String → String
  lower : String → String

structure SplitResult where
  scheme : String
  netloc : String
  path : String
  query : String
  fragment : String
  deriving DecidableEq, Repr

/-! ## The parts of a URL -/

/-- What `urlsplit` drops in front. -/
def isStripped (character : Char) : Bool := character.toNat ≤ 32

/-- What it drops everywhere. -/
def isRemoved (character : Char) : Bool :=
  character == '\t' || character == '\r' || character == '\n'

def cleaned (text : List Char) : List Char :=
  (text.dropWhile isStripped).filter fun character => !isRemoved character

def isSchemeCharacter (character : Char) : Bool :=
  character.isAlphanum || character == '+' || character == '-' || character == '.'

/-- The scheme in lower case, and what follows its colon. -/
def splitScheme (text : List Char) : List Char × List Char :=
  let name := text.takeWhile (· ≠ ':')
  match name, text.dropWhile (· ≠ ':') with
  | first :: _, _ :: rest =>
      if first.isAlpha && name.all isSchemeCharacter then (name.map Char.toLower, rest)
      else ([], text)
  | _, _ => ([], text)

/-- What ends a network location. -/
def isDelimiter (character : Char) : Bool :=
  character == '/' || character == '?' || character == '#'

def splitNetloc : List Char → List Char × List Char
  | '/' :: '/' :: rest =>
      (rest.takeWhile fun character => !isDelimiter character,
        rest.dropWhile fun character => !isDelimiter character)
  | text => ([], text)

/-- `text.split(separator, 1)`; without the separator the second part is empty. -/
def breakAt (separator : Char) (text : List Char) : List Char × List Char :=
  (text.takeWhile (· ≠ separator), (text.dropWhile (· ≠ separator)).drop 1)

/-! ## The network location -/

/-- What follows the user part. -/
def hostAndPort (netloc : String) : String :=
  match rpartition '@' netloc with
  | some (_, info) => info
  | none => netloc

def isHexDigit (character : Char) : Bool :=
  character.isDigit || ('a' ≤ character && character ≤ 'f') ||
    ('A' ≤ character && character ≤ 'F')

/-- `_check_bracketed_host`. -/
def bracketedHost (host : String) : Bool :=
  match host.toList with
  | 'v' :: version =>
      let digits := version.takeWhile isHexDigit
      match version.dropWhile isHexDigit with
      | '.' :: _ :: _ => !digits.isEmpty
      | _ => false
  | _ =>
      match PythonIp.ipAddress host with
      | some address => address.version == 6
      | none => false

/-- `_check_bracketed_netloc`. -/
def bracketedNetloc (netloc : String) : Bool :=
  match partition '[' (hostAndPort netloc) with
  | some (before, bracketed) =>
      let (host, port) := (partition ']' bracketed).getD (bracketed, "")
      before.isEmpty && (port.isEmpty || startsWith ":" port) && bracketedHost host
  | none => bracketedHost ((partition ':' (hostAndPort netloc)).getD (hostAndPort netloc, "")).1

/-- `_checknetloc`: no delimiter appears under the normal form. -/
def normalNetloc (tables : UnicodeTables) (netloc : String) : Bool :=
  let plain := String.ofList (netloc.toList.filter fun character =>
    !(['@', ':', '#', '?'].contains character))
  netloc.isEmpty || isAscii netloc || tables.nfkc plain == plain ||
    !(tables.nfkc plain).toList.any fun character => ['/', '?', '#', '@', ':'].contains character

/-- The checks of a network location; it raises a `ValueError` where they fail. -/
def netlocOk (tables : UnicodeTables) (netloc : String) : Bool :=
  let opens := netloc.toList.contains '['
  let closes := netloc.toList.contains ']'
  opens == closes && (!opens || bracketedNetloc netloc) && normalNetloc tables netloc

/-- `urlsplit`, or `none` where it raises. -/
def urlsplit (tables : UnicodeTables) (url : String) : Option SplitResult :=
  let (scheme, rest) := splitScheme (cleaned url.toList)
  let (netloc, rest) := splitNetloc rest
  let (rest, fragment) := breakAt '#' rest
  let (path, query) := breakAt '?' rest
  if netlocOk tables (String.ofList netloc) then
    some {
      scheme := String.ofList scheme
      netloc := String.ofList netloc
      path := String.ofList path
      query := String.ofList query
      fragment := String.ofList fragment }
  else none

namespace SplitResult

/-- `_hostinfo`: the host and the port as they are written. -/
def hostinfo (parts : SplitResult) : String × Option String :=
  let written (host port : String) : String × Option String :=
    (host, if port.isEmpty then none else some port)
  match partition '[' (hostAndPort parts.netloc) with
  | some (_, bracketed) =>
      let (host, after) := (partition ']' bracketed).getD (bracketed, "")
      written host ((partition ':' after).getD ("", "")).2
  | none =>
      let (host, port) := (partition ':' (hostAndPort parts.netloc)).getD
        (hostAndPort parts.netloc, "")
      written host port

/-- The host in lower case; the zone of a scoped address keeps its case. -/
def hostname (tables : UnicodeTables) (parts : SplitResult) : Option String :=
  let host := parts.hostinfo.1
  if host.isEmpty then none
  else
    match partition '%' host with
    | some (name, zone) => some (tables.lower name ++ "%" ++ zone)
    | none => some (tables.lower host)

/-- The port, or an error where it is no number up to 65535. -/
def port (parts : SplitResult) : Except Unit (Option Nat) :=
  match parts.hostinfo.2 with
  | none => .ok none
  | some text =>
      if isDigit text then
        match intOfDigits text with
        | some number => if number ≤ 65535 then .ok (some number) else .error ()
        | none => .error ()
      else .error ()

def username (parts : SplitResult) : Option String :=
  (rpartition '@' parts.netloc).map fun info => ((partition ':' info.1).getD (info.1, "")).1

def password (parts : SplitResult) : Option String :=
  (rpartition '@' parts.netloc).bind fun info => (partition ':' info.1).map Prod.snd

end SplitResult

/-- `urlunsplit` of parts that have a network location. -/
def urlunsplit (parts : SplitResult) : String :=
  let path := if parts.path.isEmpty || startsWith "/" parts.path then parts.path
    else "/" ++ parts.path
  let url := parts.scheme ++ ":" ++ "//" ++ parts.netloc ++ path
  let url := if parts.query.isEmpty then url else url ++ "?" ++ parts.query
  if parts.fragment.isEmpty then url else url ++ "#" ++ parts.fragment

/-! ## Percent-encoding -/

/-- The bytes that `quote` leaves alone: letters, digits and `-._~`. -/
def isUnreserved (byte : UInt8) : Bool :=
  let code := byte.toNat
  (48 ≤ code && code ≤ 57) || (65 ≤ code && code ≤ 90) || (97 ≤ code && code ≤ 122) ||
    code == 45 || code == 46 || code == 95 || code == 126

def upperHex (value : Nat) : Char :=
  if value < 10 then Char.ofNat (48 + value) else Char.ofNat (55 + value)

def quoteByte (byte : UInt8) : List Char :=
  if isUnreserved byte then [Char.ofNat byte.toNat]
  else ['%', upperHex (byte.toNat / 16), upperHex (byte.toNat % 16)]

def quoteText (text : String) : List Char := (encodeUtf8 text).flatMap quoteByte

/-- `quote(text, safe="")`. -/
def quote (text : String) : String := String.ofList (quoteText text)

def quotePair (pair : String × String) : List Char := quoteText pair.1 ++ '=' :: quoteText pair.2

/-- `urlencode(pairs, quote_via=quote)`. -/
def urlencode (pairs : List (String × String)) : String :=
  String.ofList (['&'].intercalate (pairs.map quotePair))

/-! ## Splitting a URL that has a host -/

theorem cleaned_eq {text : List Char} (start : ∀ character ∈ text.head?, isStripped character = false)
    (plain : ∀ character ∈ text, isRemoved character = false) : cleaned text = text := by
  have kept : text.dropWhile isStripped = text := by
    cases text with
    | nil => rfl
    | cons first rest => exact List.dropWhile_cons_of_neg (by simpa using start first rfl)
  rw [cleaned, kept, List.filter_eq_self]
  intro character member
  rw [plain character member]
  rfl

theorem isAlpha_iff (character : Char) : character.isAlpha = true ↔
    (65 ≤ character.toNat ∧ character.toNat ≤ 90) ∨
      (97 ≤ character.toNat ∧ character.toNat ≤ 122) := by
  have upper : character.isUpper = true ↔ 65 ≤ character.toNat ∧ character.toNat ≤ 90 :=
    decide_eq_true_iff
  have lower : character.isLower = true ↔ 97 ≤ character.toNat ∧ character.toNat ≤ 122 := by
    change (decide (97 ≤ character.toNat) && decide (character.toNat ≤ 122)) = true ↔ _
    rw [Bool.and_eq_true, decide_eq_true_iff, decide_eq_true_iff]
  change (character.isUpper || character.isLower) = true ↔ _
  rw [Bool.or_eq_true, upper, lower]

theorem isStripped_of_isAlpha {character : Char} (alpha : character.isAlpha = true) :
    isStripped character = false := by
  rw [isAlpha_iff] at alpha
  apply decide_eq_false
  omega

theorem takeWhile_append {test : Char → Bool} {first : List Char} (rest : List Char)
    (inside : ∀ character ∈ first, test character = true)
    (stop : ∀ character ∈ rest.head?, test character = false) :
    (first ++ rest).takeWhile test = first ∧ (first ++ rest).dropWhile test = rest := by
  rw [List.takeWhile_append_of_pos inside, List.dropWhile_append_of_pos inside]
  cases rest with
  | nil => simp
  | cons next later =>
      have ends := stop next rfl
      simp [ends]

theorem breakAt_append {separator : Char} {first rest : List Char} (absent : separator ∉ first) :
    breakAt separator (first ++ separator :: rest) = (first, rest) := by
  have inside : ∀ character ∈ first, decide (character ≠ separator) = true := fun character member =>
    decide_eq_true fun same => absent (same ▸ member)
  obtain ⟨taken, dropped⟩ := takeWhile_append (separator :: rest) inside (by simp)
  rw [breakAt, taken, dropped]
  rfl

theorem breakAt_of_not_mem {separator : Char} {text : List Char} (absent : separator ∉ text) :
    breakAt separator text = (text, []) := by
  have inside : ∀ character ∈ text, decide (character ≠ separator) = true := fun character member =>
    decide_eq_true fun same => absent (same ▸ member)
  obtain ⟨taken, dropped⟩ := takeWhile_append [] inside (by simp)
  rw [List.append_nil] at taken dropped
  rw [breakAt, taken, dropped]
  rfl

/-- A separator that leaves nothing behind it is absent or last. -/
theorem breakAt_eq_nil {separator : Char} {text first : List Char}
    (broken : breakAt separator text = (first, [])) :
    separator ∉ first ∧ (text = first ∨ text = first ++ [separator]) := by
  have taken : text.takeWhile (fun character => decide (character ≠ separator)) = first :=
    congrArg Prod.fst broken
  have dropped : (text.dropWhile (fun character => decide (character ≠ separator))).drop 1 = [] :=
    congrArg Prod.snd broken
  have absent : separator ∉ first := by
    rw [← taken]
    intro member
    simpa using List.mem_takeWhile_imp member
  refine ⟨absent, ?_⟩
  have whole := List.takeWhile_append_dropWhile (p := fun character => decide (character ≠ separator))
    (l := text)
  rw [taken] at whole
  cases rest : text.dropWhile (fun character => decide (character ≠ separator)) with
  | nil =>
      rw [rest, List.append_nil] at whole
      exact .inl whole.symm
  | cons next later =>
      have some_ : text.dropWhile (fun character => decide (character ≠ separator)) ≠ [] := by
        rw [rest]
        simp
      have ends := List.head_dropWhile_not _ some_
      simp only [rest, List.head_cons, decide_eq_false_iff_not, not_not] at ends
      rw [rest, List.drop_succ_cons, List.drop_zero] at dropped
      rw [rest, ends, dropped] at whole
      exact .inr whole.symm

/-- The places of a URL that has a scheme and a network location. -/
structure Located (text name netloc tail : List Char) : Prop where
  text : text = name ++ ':' :: '/' :: '/' :: (netloc ++ tail)
  alpha : ∃ first rest, name = first :: rest ∧ first.isAlpha = true
  characters : ∀ character ∈ name, isSchemeCharacter character = true
  netloc : ∀ character ∈ netloc, isDelimiter character = false
  tail : ∀ character ∈ tail.head?, isDelimiter character = true

/-- The result for a URL at these places. -/
def assemble (name netloc tail : List Char) : SplitResult where
  scheme := String.ofList (name.map Char.toLower)
  netloc := String.ofList netloc
  path := String.ofList (breakAt '?' (breakAt '#' tail).1).1
  query := String.ofList (breakAt '?' (breakAt '#' tail).1).2
  fragment := String.ofList (breakAt '#' tail).2

theorem Located.urlsplit {tables : UnicodeTables} {url : String} {name netloc tail : List Char}
    (located : Located (cleaned url.toList) name netloc tail)
    (ok : netlocOk tables (String.ofList netloc) = true) :
    urlsplit tables url = some (assemble name netloc tail) := by
  have colon : ∀ character ∈ name, decide (character ≠ ':') = true := by
    intro character member
    refine decide_eq_true fun same => ?_
    have scheme := located.characters character member
    rw [same] at scheme
    cases scheme
  obtain ⟨taken, dropped⟩ := takeWhile_append (':' :: '/' :: '/' :: (netloc ++ tail)) colon
    (by simp)
  obtain ⟨first, rest, starts, alpha⟩ := located.alpha
  have scheme : splitScheme (cleaned url.toList) =
      (name.map Char.toLower, '/' :: '/' :: (netloc ++ tail)) := by
    have all : name.all isSchemeCharacter = true := List.all_eq_true.mpr located.characters
    rw [located.text, splitScheme, taken, dropped]
    subst starts
    simp only [alpha, all, Bool.and_self, if_true]
  have plain : ∀ character ∈ netloc, (!isDelimiter character) = true := fun character member => by
    rw [located.netloc character member]
    rfl
  obtain ⟨inside, after⟩ := takeWhile_append tail plain fun character member => by
    rw [located.tail character member]
    rfl
  rw [PythonUrl.urlsplit, scheme]
  simp only [splitNetloc, inside, after, ok, if_true]
  rfl

theorem splitScheme_cons {text scheme rest : List Char} (named : scheme ≠ [])
    (split : splitScheme text = (scheme, rest)) :
    ∃ name, text = name ++ ':' :: rest ∧ scheme = name.map Char.toLower ∧
      (∃ first later, name = first :: later ∧ first.isAlpha = true) ∧
      ∀ character ∈ name, isSchemeCharacter character = true := by
  have whole := List.takeWhile_append_dropWhile (p := fun character => decide (character ≠ ':'))
    (l := text)
  simp only [splitScheme] at split
  split at split
  next first later colon after starts dropped =>
    split_ifs at split with allowed
    · cases split
      rw [Bool.and_eq_true, List.all_eq_true] at allowed
      have some_ : text.dropWhile (fun character => decide (character ≠ ':')) ≠ [] := by
        rw [dropped]
        simp
      have ends := List.head_dropWhile_not _ some_
      simp only [dropped, List.head_cons, decide_eq_false_iff_not, not_not] at ends
      rw [dropped, ends] at whole
      exact ⟨_, whole.symm, rfl, ⟨first, later, starts, allowed.1⟩, allowed.2⟩
    · cases split
      exact absurd rfl named
  next =>
    cases split
    exact absurd rfl named

theorem splitNetloc_cons {text netloc rest : List Char} (hosted : netloc ≠ [])
    (split : splitNetloc text = (netloc, rest)) :
    text = '/' :: '/' :: (netloc ++ rest) ∧ (∀ character ∈ netloc, isDelimiter character = false) ∧
      ∀ character ∈ rest.head?, isDelimiter character = true := by
  unfold splitNetloc at split
  split at split
  next later =>
    cases split
    refine ⟨by rw [List.takeWhile_append_dropWhile], fun character member => ?_,
      fun character member => ?_⟩
    · simpa using List.mem_takeWhile_imp member
    · have some_ : later.dropWhile (fun character => !isDelimiter character) ≠ [] := by
        rintro none
        rw [none] at member
        cases member
      have ends := List.head_dropWhile_not _ some_
      rw [List.head?_eq_some_head some_] at member
      rw [Option.mem_some] at member
      rw [← member]
      simpa using ends
  next =>
    cases split
    exact absurd rfl hosted

theorem exists_located {tables : UnicodeTables} {url : String} {parts : SplitResult}
    (split : urlsplit tables url = some parts) (named : parts.scheme ≠ "")
    (hosted : parts.netloc ≠ "") :
    ∃ name netloc tail, Located (cleaned url.toList) name netloc tail ∧
      netlocOk tables (String.ofList netloc) = true ∧ parts = assemble name netloc tail := by
  obtain ⟨scheme, rest, schemed⟩ : ∃ scheme rest,
    splitScheme (cleaned url.toList) = (scheme, rest) := ⟨_, _, rfl⟩
  obtain ⟨netloc, tail, located⟩ : ∃ netloc tail, splitNetloc rest = (netloc, tail) := ⟨_, _, rfl⟩
  rw [urlsplit, schemed] at split
  simp only [located] at split
  split_ifs at split with ok
  cases split
  have named' : scheme ≠ [] := by
    rintro rfl
    exact named rfl
  have hosted' : netloc ≠ [] := by
    rintro rfl
    exact hosted rfl
  obtain ⟨name, text, rfl, alpha, characters⟩ := splitScheme_cons named' schemed
  obtain ⟨after, inside, stops⟩ := splitNetloc_cons hosted' located
  rw [after] at text
  exact ⟨name, netloc, tail, ⟨text, alpha, characters, inside, stops⟩, ok, rfl⟩

/-! ## Percent-decoding -/

def hexValue? (character : Char) : Option Nat :=
  let code := character.toNat
  if 48 ≤ code ∧ code ≤ 57 then some (code - 48)
  else if 65 ≤ code ∧ code ≤ 70 then some (code - 55)
  else if 97 ≤ code ∧ code ≤ 102 then some (code - 87)
  else none

/-- `unquote_to_bytes` of ASCII text. -/
def unquoteBytes : List Char → List UInt8
  | '%' :: high :: low :: rest =>
      match hexValue? high, hexValue? low with
      | some first, some second => UInt8.ofNat (16 * first + second) :: unquoteBytes rest
      | _, _ => 37 :: unquoteBytes (high :: low :: rest)
  | character :: rest => UInt8.ofNat character.toNat :: unquoteBytes rest
  | [] => []

def isAsciiCharacter (character : Char) : Bool := character.toNat < 128

/-- `unquote`: the runs of ASCII text are decoded, the others stay. -/
def unquote (text : List Char) : String :=
  if text.contains '%' then
    String.join ((text.splitBy fun first second =>
      isAsciiCharacter first == isAsciiCharacter second).map fun run =>
        if run.all isAsciiCharacter then decodeReplace (unquoteBytes run) else String.ofList run)
  else String.ofList text

/-- `unquote_plus`. -/
def unquotePlus (text : List Char) : String :=
  unquote (text.map fun character => if character = '+' then ' ' else character)

/-- `parse_qsl(query, keep_blank_values=True)`. -/
def parseQsl (query : String) : List (String × String) :=
  ((query.toList.splitOn '&').filter fun piece => !piece.isEmpty).map fun piece =>
    (unquotePlus (breakAt '=' piece).1, unquotePlus (breakAt '=' piece).2)

/-! ### A query that was encoded -/

/-- What `quote` writes. -/
def isQuoted (character : Char) : Bool :=
  character.isAlphanum || ['-', '.', '_', '~', '%'].contains character

theorem quoteByte_facts : ∀ code < 256, (∀ character ∈ quoteByte (UInt8.ofNat code),
    isQuoted character = true ∧ isAsciiCharacter character = true) ∧
    quoteByte (UInt8.ofNat code) ≠ [] := by
  have all : ∀ code < 256, ((quoteByte (UInt8.ofNat code)).all fun character =>
      isQuoted character && isAsciiCharacter character) = true ∧
      quoteByte (UInt8.ofNat code) ≠ [] := by
    decide +kernel
  intro code small
  obtain ⟨characters, nonempty⟩ := all code small
  rw [List.all_eq_true] at characters
  exact ⟨fun character member => Bool.and_eq_true_iff.mp (characters character member), nonempty⟩

theorem unquoteBytes_plain {character : Char} (plain : character ≠ '%') (rest : List Char) :
    unquoteBytes (character :: rest) = UInt8.ofNat character.toNat :: unquoteBytes rest := by
  rw [unquoteBytes.eq_def]
  split
  next same => exact absurd (List.cons.inj same).1 plain
  next same =>
    obtain ⟨rfl, rfl⟩ := List.cons.inj same
    rfl
  next same => cases same

theorem hexValue?_upperHex : ∀ value < 16, hexValue? (upperHex value) = some value := by
  decide

theorem unreserved_facts : ∀ code < 256, isUnreserved (UInt8.ofNat code) = true →
    Char.ofNat code ≠ '%' ∧ (Char.ofNat code).toNat = code := by
  decide +kernel

theorem unquoteBytes_quoteByte (byte : UInt8) (rest : List Char) :
    unquoteBytes (quoteByte byte ++ rest) = byte :: unquoteBytes rest := by
  have small : byte.toNat < 256 := byte.toNat_lt
  unfold quoteByte
  split_ifs with plain
  · rw [← UInt8.ofNat_toNat (x := byte)] at plain
    obtain ⟨other, same⟩ := unreserved_facts _ small plain
    rw [List.singleton_append, unquoteBytes_plain other, same, UInt8.ofNat_toNat]
  · have whole : 16 * (byte.toNat / 16) + byte.toNat % 16 = byte.toNat := by omega
    rw [List.cons_append, List.cons_append, List.singleton_append, unquoteBytes,
      hexValue?_upperHex _ (by omega), hexValue?_upperHex _ (by omega)]
    simp only [whole, UInt8.ofNat_toNat]

theorem unquoteBytes_quoteText (text : String) : unquoteBytes (quoteText text) = encodeUtf8 text := by
  have every (bytes : List UInt8) : unquoteBytes (bytes.flatMap quoteByte) = bytes := by
    induction bytes with
    | nil => rfl
    | cons first rest ih => rw [List.flatMap_cons, unquoteBytes_quoteByte, ih]
  exact every _

theorem mem_quoteText {text : String} {character : Char} (member : character ∈ quoteText text) :
    isQuoted character = true ∧ isAsciiCharacter character = true := by
  obtain ⟨byte, -, inside⟩ := List.mem_flatMap.mp member
  rw [← UInt8.ofNat_toNat (x := byte)] at inside
  exact (quoteByte_facts _ byte.toNat_lt).1 character inside

/-- A character that `quote` never writes is not in a quoted text. -/
theorem not_mem_quoteText {character : Char} (other : isQuoted character = false) (text : String) :
    character ∉ quoteText text := by
  intro member
  have quoted := (mem_quoteText member).1
  rw [other] at quoted
  cases quoted

/-- Bytes of ASCII text that has nothing quoted. -/
theorem unquoteBytes_of_plain {text : List Char} (plain : '%' ∉ text) :
    unquoteBytes text = text.map fun character => UInt8.ofNat character.toNat := by
  induction text with
  | nil => rfl
  | cons first rest ih =>
      rw [List.mem_cons, not_or] at plain
      rw [unquoteBytes_plain (Ne.symm plain.1), ih plain.2, List.map_cons]

theorem encodeChar_of_ascii {character : Char} (ascii : isAsciiCharacter character = true) :
    String.utf8EncodeChar character = [UInt8.ofNat character.toNat] := by
  have small : character.toNat < 128 := of_decide_eq_true ascii
  have code : character.val.toNat = character.toNat := rfl
  unfold String.utf8EncodeChar
  rw [code, if_pos (by omega)]

theorem unquote_quoteText (text : String) : unquote (quoteText text) = text := by
  have ascii : (quoteText text).all isAsciiCharacter = true :=
    List.all_eq_true.mpr fun _ member => (mem_quoteText member).2
  unfold unquote
  split_ifs with quoted
  · have some_ : quoteText text ≠ [] := by
      intro none
      rw [none] at quoted
      cases quoted
    have one : (quoteText text).splitBy (fun first second =>
        isAsciiCharacter first == isAsciiCharacter second) = [quoteText text] := by
      refine List.splitBy_of_isChain some_
        (List.isChain_iff_forall_rel_of_append_cons_cons.mpr fun {first second _ _} whole => ?_)
      have inside : first ∈ quoteText text := by rw [whole]; simp
      have inside' : second ∈ quoteText text := by rw [whole]; simp
      rw [(mem_quoteText inside).2, (mem_quoteText inside').2]
      rfl
    rw [one]
    rw [List.map_singleton, if_pos ascii, unquoteBytes_quoteText, decodeReplace_encodeUtf8]
    simp [String.join]
  · have plain : '%' ∉ quoteText text := by simpa using quoted
    have bytes := unquoteBytes_quoteText text
    rw [unquoteBytes_of_plain plain] at bytes
    have same : encodeUtf8 (String.ofList (quoteText text)) = encodeUtf8 text := by
      rw [← bytes, encodeUtf8, String.toList_ofList, List.map_eq_flatMap]
      refine List.flatMap_congr fun character member => ?_
      exact encodeChar_of_ascii (mem_quoteText member).2
    have decoded := decodeUtf8_encodeUtf8 (String.ofList (quoteText text))
    rw [same, decodeUtf8_encodeUtf8] at decoded
    exact (Option.some.inj decoded).symm

theorem unquotePlus_quoteText (text : String) : unquotePlus (quoteText text) = text := by
  have same : (quoteText text).map (fun character => if character = '+' then ' ' else character) =
      quoteText text := by
    conv_rhs => rw [← List.map_id (quoteText text)]
    refine List.map_congr_left fun character member => if_neg ?_
    rintro rfl
    exact not_mem_quoteText rfl text member
  rw [unquotePlus, same, unquote_quoteText]

/-- Two queries joined are read one after the other. -/
theorem parseQsl_append (first second : String) :
    parseQsl (first ++ "&" ++ second) = parseQsl first ++ parseQsl second := by
  have text : (first ++ "&" ++ second).toList = first.toList ++ '&' :: second.toList := by simp
  rw [parseQsl, text, List.splitOn_append_cons_self, List.filter_append, List.map_append]
  rfl

/-- An encoded query is read back as the pairs it was made of. -/
theorem parseQsl_urlencode (pairs : List (String × String)) :
    parseQsl (urlencode pairs) = pairs := by
  cases pairs with
  | nil => rfl
  | cons pair rest =>
      have separate : ∀ piece ∈ (pair :: rest).map quotePair, '&' ∉ piece := by
        intro piece member
        obtain ⟨pair, -, rfl⟩ := List.mem_map.mp member
        simpa [quotePair] using ⟨not_mem_quoteText rfl _, not_mem_quoteText rfl _⟩
      have some_ (pair : String × String) : (!(quotePair pair).isEmpty) = true := by
        simp [quotePair]
      rw [parseQsl, urlencode, String.toList_ofList,
        List.splitOn_intercalate '&' separate (by simp), List.filter_eq_self.mpr, List.map_map]
      · conv_rhs => rw [← List.map_id (pair :: rest)]
        refine List.map_congr_left fun pair _ => ?_
        have parts : breakAt '=' (quotePair pair) = (quoteText pair.1, quoteText pair.2) :=
          breakAt_append (not_mem_quoteText rfl _)
        simp [parts, unquotePlus_quoteText]
      · intro piece member
        obtain ⟨pair, -, rfl⟩ := List.mem_map.mp member
        exact some_ pair

end PythonUrl
