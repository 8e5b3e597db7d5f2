import CustomDomain.PythonText
import Mathlib.Data.Rat.Defs
import Mathlib.Data.List.Sort
import Mathlib.Algebra.Order.Ring.Rat

/-!
# JSON as text

The grammar of JSON with the three constants Python's reader takes besides, and
the text `json.dumps` writes for an object of strings and integers.  Reading such
a text gives the object back.

Strings are Unicode text: an escape that is half of a surrogate pair without the
other half is not read.
-/

namespace JsonText

/-- A JSON text, read.  A number keeps whether it was written as an integer, and
an object its members in the order of the text. -/
inductive Value where
  | null
  | bool (value : Bool)
  | number (integral : Bool) (value : Rat)
  | constant (name : String)
  | str (value : String)
  | arr (items : List Value)
  | obj (fields : List (String × Value))
  deriving Repr

/-- The member of an object; the last one counts. -/
def member? (key : String) (fields : List (String × Value)) : Option Value :=
  fields.reverse.lookup key

/-! ## Reading -/

def isSpace (character : Char) : Bool :=
  character == ' ' || character == '\t' || character == '\n' || character == '\r'

def skip (text : List Char) : List Char := text.dropWhile isSpace

def hexValue? (character : Char) : Option Nat :=
  if 48 ≤ character.toNat ∧ character.toNat ≤ 57 then some (character.toNat - 48)
  else if 97 ≤ character.toNat ∧ character.toNat ≤ 102 then some (character.toNat - 87)
  else if 65 ≤ character.toNat ∧ character.toNat ≤ 70 then some (character.toNat - 55)
  else none

/-- The code unit of four hexadecimal digits. -/
def hex4? (first second third fourth : Char) : Option Nat := do
  let first ← hexValue? first
  let second ← hexValue? second
  let third ← hexValue? third
  let fourth ← hexValue? fourth
  return ((first * 16 + second) * 16 + third) * 16 + fourth

/-- What a one-letter escape stands for. -/
def escaped? (character : Char) : Option Char :=
  if character = '"' then some '"'
  else if character = '\\' then some '\\'
  else if character = '/' then some '/'
  else if character = 'b' then some '\x08'
  else if character = 'f' then some '\x0c'
  else if character = 'n' then some '\n'
  else if character = 'r' then some '\r'
  else if character = 't' then some '\t'
  else none

/-- The code points of a string up to its closing quote, surrogates not yet
joined, and the text after it. -/
def units : List Char → Option (List Nat × List Char)
  | [] => none
  | '"' :: rest => some ([], rest)
  | '\\' :: 'u' :: first :: second :: third :: fourth :: rest =>
      match hex4? first second third fourth, units rest with
      | some unit, some (later, rest) => some (unit :: later, rest)
      | _, _ => none
  | '\\' :: character :: rest =>
      match escaped? character, units rest with
      | some plain, some (later, rest) => some (plain.toNat :: later, rest)
      | _, _ => none
  | character :: rest =>
      if character.toNat < 32 then none
      else
        match units rest with
        | some (later, rest) => some (character.toNat :: later, rest)
        | none => none

/-- Join the surrogate pairs. -/
def join : List Nat → Option (List Char)
  | [] => some []
  | high :: low :: rest =>
      if 0xd800 ≤ high ∧ high < 0xdc00 then
        if 0xdc00 ≤ low ∧ low < 0xe000 then
          (join rest).map (Char.ofNat (0x10000 + (high - 0xd800) * 1024 + (low - 0xdc00)) :: ·)
        else none
      else if 0xdc00 ≤ high ∧ high < 0xe000 then none
      else (join (low :: rest)).map (Char.ofNat high :: ·)
  | [unit] => if 0xd800 ≤ unit ∧ unit < 0xe000 then none else some [Char.ofNat unit]

/-- A string, after its opening quote. -/
def string (text : List Char) : Option (String × List Char) := do
  let (codes, rest) ← units text
  let characters ← join codes
  return (String.ofList characters, rest)

/-- The digits at the start of a text, and what follows. -/
def digits (text : List Char) : List Char × List Char :=
  (text.takeWhile Char.isDigit, text.dropWhile Char.isDigit)

/-- The integer part of a number: a zero stands alone. -/
def whole : List Char → Option (Nat × List Char)
  | '0' :: rest => some (0, rest)
  | text =>
      match digits text with
      | ([], _) => none
      | (found, rest) => some (Nat.ofDigitChars 10 found 0, rest)

/-- The fraction, if there is one. -/
def fraction : List Char → Option Rat × List Char
  | '.' :: text =>
      match digits text with
      | ([], _) => (none, '.' :: text)
      | (found, rest) => (some (Nat.ofDigitChars 10 found 0 / 10 ^ found.length), rest)
  | text => (none, text)

/-- The power of ten, if there is one. -/
def power (text : List Char) : Option Rat × List Char :=
  match text with
  | letter :: after =>
      if letter = 'e' ∨ letter = 'E' then
        let (negative, start) := match after with
          | '-' :: rest => (true, rest)
          | '+' :: rest => (false, rest)
          | rest => (false, rest)
        match digits start with
        | ([], _) => (none, text)
        | (found, rest) =>
            let exponent := Nat.ofDigitChars 10 found 0
            (some (if negative then 1 / 10 ^ exponent else 10 ^ exponent), rest)
      else (none, text)
  | [] => (none, [])

/-- A number without its sign. -/
def magnitude (text : List Char) : Option ((Bool × Rat) × List Char) := do
  let (integer, rest) ← whole text
  let (part, rest) := fraction rest
  let (scale, rest) := power rest
  return ((part.isNone && scale.isNone, ((integer : Rat) + part.getD 0) * scale.getD 1), rest)

def number : List Char → Option (Value × List Char)
  | '-' :: text => (magnitude text).map fun (read, rest) => (.number read.1 (-read.2), rest)
  | text => (magnitude text).map fun (read, rest) => (.number read.1 read.2, rest)

/-- The words that stand for a value. -/
def words : List (String × Value) :=
  [("null", .null), ("true", .bool true), ("false", .bool false), ("NaN", .constant "NaN"),
    ("Infinity", .constant "Infinity"), ("-Infinity", .constant "-Infinity")]

/-- A word or a number. -/
def scalar (text : List Char) : Option (Value × List Char) :=
  match words.find? fun word => word.1.toList.isPrefixOf text with
  | some word => some (word.2, text.drop word.1.toList.length)
  | none => number text

mutual

/-- A value, at its first character. -/
def value : Nat → List Char → Option (Value × List Char)
  | 0, _ => none
  | _ + 1, '"' :: rest => do
      let (text, rest) ← string rest
      return (.str text, rest)
  | fuel + 1, '{' :: rest =>
      match skip rest with
      | '}' :: rest => some (.obj [], rest)
      | rest => do
          let (fields, rest) ← members fuel rest
          return (.obj fields, rest)
  | fuel + 1, '[' :: rest =>
      match skip rest with
      | ']' :: rest => some (.arr [], rest)
      | rest => do
          let (found, rest) ← items fuel rest
          return (.arr found, rest)
  | _ + 1, text => scalar text

/-- The members of an object up to its closing brace. -/
def members : Nat → List Char → Option (List (String × Value) × List Char)
  | fuel + 1, '"' :: text => do
      let (key, rest) ← string text
      match skip rest with
      | ':' :: rest =>
          let (found, rest) ← value fuel (skip rest)
          match skip rest with
          | ',' :: rest =>
              let (later, rest) ← members fuel (skip rest)
              return ((key, found) :: later, rest)
          | '}' :: rest => return ([(key, found)], rest)
          | _ => none
      | _ => none
  | _, _ => none

/-- The items of an array up to its closing bracket. -/
def items : Nat → List Char → Option (List Value × List Char)
  | fuel + 1, text => do
      let (found, rest) ← value fuel text
      match skip rest with
      | ',' :: rest =>
          let (later, rest) ← items fuel (skip rest)
          return (found :: later, rest)
      | ']' :: rest => return ([found], rest)
      | _ => none
  | 0, _ => none

end

/-- Read a whole text.  Every call of a reader takes at least one character, so
the length of the text bounds how often they call each other.  The grammar has no limits; those
of a runtime on the digits of an integer and on the depth come on top. -/
def read (text : String) : Option Value := do
  let (found, rest) ← value (text.toList.length + 1) (skip text.toList)
  if skip rest = [] then some found else none

/-! ## Writing -/

def hexDigit (value : Nat) : Char := Nat.digitChar value

/-- `\uXXXX`. -/
def unitEscape (unit : Nat) : List Char :=
  ['\\', 'u', hexDigit (unit / 4096 % 16), hexDigit (unit / 256 % 16), hexDigit (unit / 16 % 16),
    hexDigit (unit % 16)]

/-- The letters of the one-letter escapes that are written. -/
def shortEscape? (character : Char) : Option Char :=
  if character = '"' then some '"'
  else if character = '\\' then some '\\'
  else if character = '\x08' then some 'b'
  else if character = '\x0c' then some 'f'
  else if character = '\n' then some 'n'
  else if character = '\r' then some 'r'
  else if character = '\t' then some 't'
  else none

/-- The code units of a character. -/
def codeUnits (character : Char) : List Nat :=
  if character.toNat < 0x10000 then [character.toNat]
  else [0xd800 + (character.toNat - 0x10000) / 1024, 0xdc00 + (character.toNat - 0x10000) % 1024]

/-- A character as `json.dumps` writes it: ASCII from space to tilde as it is,
all else escaped. -/
def escape (character : Char) : List Char :=
  match shortEscape? character with
  | some letter => ['\\', letter]
  | none =>
      if 32 ≤ character.toNat ∧ character.toNat ≤ 126 then [character]
      else (codeUnits character).flatMap unitEscape

def quoted (text : String) : List Char := '"' :: text.toList.flatMap escape ++ ['"']

/-- A character as `json.dumps(…, ensure_ascii=False)` writes it: only control characters, the
quote and the backslash are escaped. -/
def rawEscape (character : Char) : List Char :=
  match shortEscape? character with
  | some letter => ['\\', letter]
  | none => if character.toNat < 32 then unitEscape character.toNat else [character]

def rawQuoted (text : String) : List Char := '"' :: text.toList.flatMap rawEscape ++ ['"']

/-- The values that are written. -/
inductive Scalar where
  | text (value : String)
  | integer (value : Int)

/-- `json.dumps` writes the value; it raises a `ValueError` on an integer with more digits. -/
def Scalar.Fits : Scalar → Prop
  | .text _ => True
  | .integer value => (Nat.toDigits 10 value.natAbs).length ≤ PythonText.intMaxStrDigits

instance : DecidablePred Scalar.Fits
  | .text _ => inferInstanceAs (Decidable True)
  | .integer _ => inferInstanceAs (Decidable (_ ≤ _))

def Scalar.read : Scalar → Value
  | .text value => .str value
  | .integer value => .number true value

/-- The text of a value that fits. -/
def Scalar.written : Scalar → List Char
  | .text value => quoted value
  | .integer (.ofNat value) => Nat.toDigits 10 value
  | .integer (.negSucc value) => '-' :: Nat.toDigits 10 (value + 1)

def writtenFields : List (String × Scalar) → List Char
  | [] => []
  | [(key, scalar)] => quoted key ++ ':' :: scalar.written
  | (key, scalar) :: rest => quoted key ++ ':' :: scalar.written ++ ',' :: writtenFields rest

/-- `json.dumps(…, separators=(",", ":"))` where every value fits. -/
def dumpsInOrder (fields : List (String × Scalar)) : String :=
  String.ofList ('{' :: writtenFields fields ++ ['}'])

/-- `json.dumps(…, separators=(",", ":"), sort_keys=True)` where every value fits. -/
def dumps (fields : List (String × Scalar)) : String :=
  String.ofList ('{' :: writtenFields
    (fields.insertionSort fun first second => first.1 ≤ second.1) ++ ['}'])

/-! ## What is written is read -/

section Strings

variable {rest : List Char}

theorem hexValue?_hexDigit : ∀ value < 16, hexValue? (hexDigit value) = some value := by
  decide

theorem hex4?_hexDigit {unit : Nat} (small : unit < 65536) :
    hex4? (hexDigit (unit / 4096 % 16)) (hexDigit (unit / 256 % 16)) (hexDigit (unit / 16 % 16))
      (hexDigit (unit % 16)) = some unit := by
  have joined : ((unit / 4096 % 16 * 16 + unit / 256 % 16) * 16 + unit / 16 % 16) * 16 +
      unit % 16 = unit := by omega
  simp only [hex4?, hexValue?_hexDigit _ (Nat.mod_lt _ (by decide : 0 < 16)), Option.bind_eq_bind,
    Option.bind_some, Option.pure_def, joined]

/-- Code units in front of what is read. -/
def inFront (found : List Nat) (read : Option (List Nat × List Char)) :
    Option (List Nat × List Char) :=
  read.map fun read => (found ++ read.1, read.2)

theorem units_unitEscape {unit : Nat} (small : unit < 65536) :
    units (unitEscape unit ++ rest) = inFront [unit] (units rest) := by
  simp only [unitEscape, List.cons_append, List.nil_append, units, hex4?_hexDigit small]
  cases units rest <;> rfl

theorem units_short {character letter : Char} (short : shortEscape? character = some letter) :
    units ('\\' :: letter :: rest) = inFront [character.toNat] (units rest) := by
  have cases_ : (character = '"' ∧ letter = '"') ∨ (character = '\\' ∧ letter = '\\') ∨
      (character = '\x08' ∧ letter = 'b') ∨ (character = '\x0c' ∧ letter = 'f') ∨
      (character = '\n' ∧ letter = 'n') ∨ (character = '\r' ∧ letter = 'r') ∨
      (character = '\t' ∧ letter = 't') := by
    unfold shortEscape? at short
    split_ifs at short <;> simp_all [eq_comm]
  rcases cases_ with ⟨rfl, rfl⟩ | ⟨rfl, rfl⟩ | ⟨rfl, rfl⟩ | ⟨rfl, rfl⟩ | ⟨rfl, rfl⟩ |
    ⟨rfl, rfl⟩ | ⟨rfl, rfl⟩
  all_goals
    simp only [units, Char.reduceEq, false_implies, implies_true, escaped?]
    cases units rest <;> rfl

theorem units_plain {character : Char} (short : shortEscape? character = none)
    (printable : 32 ≤ character.toNat) :
    units (character :: rest) = inFront [character.toNat] (units rest) := by
  have quote : character ≠ '"' := by
    rintro rfl
    cases short
  have backslash : character ≠ '\\' := by
    rintro rfl
    cases short
  rw [units]
  · rw [if_neg (by omega)]
    cases units rest <;> rfl
  · exact quote
  · intro first second third fourth later starts
    exact absurd starts backslash
  · intro letter later starts
    exact absurd starts backslash

/-- A code point is no surrogate. -/
theorem toNat_scalar (character : Char) :
    character.toNat < 0xd800 ∨ (0xe000 ≤ character.toNat ∧ character.toNat < 0x110000) := by
  rcases character.valid with low | high
  · exact .inl low
  · exact .inr ⟨high.1, high.2⟩

theorem codeUnits_lt (character : Char) : ∀ unit ∈ codeUnits character, unit < 65536 := by
  have scalar := toNat_scalar character
  unfold codeUnits
  split
  next small => simpa using small
  next large =>
    simp only [List.mem_cons, List.not_mem_nil, or_false, forall_eq_or_imp, forall_eq]
    omega

theorem units_escape (character : Char) :
    units (escape character ++ rest) = inFront (codeUnits character) (units rest) := by
  unfold escape
  split
  next letter short =>
    have small : character.toNat < 0x10000 := by
      unfold shortEscape? at short
      split_ifs at short with h h h h h h h <;> rw [h] <;> decide
    rw [codeUnits, if_pos small]
    exact units_short short
  next short =>
    split
    next printable =>
      rw [codeUnits, if_pos (by omega)]
      exact units_plain short printable.1
    next =>
      have small := codeUnits_lt character
      generalize codeUnits character = found at small
      induction found with
      | nil => simp [inFront]
      | cons unit later ih =>
          rw [List.flatMap_cons, List.append_assoc,
            units_unitEscape (small unit List.mem_cons_self),
            ih fun other member => small other (List.mem_cons_of_mem _ member)]
          simp [inFront, Function.comp_def]

theorem join_codeUnits (character : Char) (later : List Nat) :
    join (codeUnits character ++ later) = (join later).map (character :: ·) := by
  have scalar := toNat_scalar character
  unfold codeUnits
  split
  next small =>
    have same : Char.ofNat character.toNat = character := Char.ofNat_toNat character
    cases later with
    | nil =>
        simp only [List.append_nil, join]
        rw [if_neg (by omega), same]
        rfl
    | cons next later =>
        simp only [List.cons_append, List.nil_append, join]
        rw [if_neg (by omega), if_neg (by omega), same]
  next large =>
    have same : 0x10000 + (0xd800 + (character.toNat - 0x10000) / 1024 - 0xd800) * 1024 +
        (0xdc00 + (character.toNat - 0x10000) % 1024 - 0xdc00) = character.toNat := by omega
    simp only [List.cons_append, List.nil_append, join]
    rw [if_pos (by omega), if_pos (by omega), same, Char.ofNat_toNat]

theorem units_quoted (text : List Char) :
    units (text.flatMap escape ++ '"' :: rest) = some (text.flatMap codeUnits, rest) := by
  induction text with
  | nil => rfl
  | cons character later ih =>
      rw [List.flatMap_cons, List.append_assoc, units_escape, ih]
      rfl

theorem join_quoted (text : List Char) : join (text.flatMap codeUnits) = some text := by
  induction text with
  | nil => rfl
  | cons character later ih =>
      rw [List.flatMap_cons, join_codeUnits, ih]
      rfl

/-- A string that was written is read. -/
theorem string_quoted (text : String) (rest : List Char) :
    string (text.toList.flatMap escape ++ '"' :: rest) = some (text, rest) := by
  simp [string, units_quoted, join_quoted]

theorem units_rawEscape (character : Char) :
    units (rawEscape character ++ rest) = inFront [character.toNat] (units rest) := by
  unfold rawEscape
  split
  next letter short => exact units_short short
  next short =>
    split
    next control => exact units_unitEscape (by omega)
    next printable => exact units_plain short (by omega)

theorem units_rawQuoted (text : List Char) :
    units (text.flatMap rawEscape ++ '"' :: rest) = some (text.map Char.toNat, rest) := by
  induction text with
  | nil => rfl
  | cons character later ih =>
      rw [List.flatMap_cons, List.append_assoc, units_rawEscape, ih]
      rfl

theorem join_toNat (text : List Char) : join (text.map Char.toNat) = some text := by
  induction text with
  | nil => rfl
  | cons character later ih =>
      have scalar := toNat_scalar character
      cases later with
      | nil =>
          rw [List.map_singleton, join, if_neg (by omega), Char.ofNat_toNat]
      | cons next rest =>
          rw [List.map_cons, List.map_cons, join, if_neg (by omega), if_neg (by omega),
            ← List.map_cons, ih, Char.ofNat_toNat]
          rfl

/-- A string that was written with few escapes is read. -/
theorem string_rawQuoted (text : String) (rest : List Char) :
    string (text.toList.flatMap rawEscape ++ '"' :: rest) = some (text, rest) := by
  simp [string, units_rawQuoted, join_toNat]

end Strings

section Numbers

/-- The text goes on after a member of an object. -/
inductive Ends : List Char → Prop where
  | comma (rest : List Char) : Ends (',' :: rest)
  | brace (rest : List Char) : Ends ('}' :: rest)

theorem Ends.digits {rest : List Char} (ends : Ends rest) {found : List Char}
    (all : ∀ character ∈ found, character.isDigit = true) :
    digits (found ++ rest) = (found, rest) := by
  rw [JsonText.digits, List.takeWhile_append_of_pos all, List.dropWhile_append_of_pos all]
  cases ends with
  | comma rest => simp
  | brace rest => simp

theorem toDigits_head {value : Nat} (positive : 0 < value) :
    (Nat.toDigits 10 value).head? ≠ some '0' := by
  induction value using Nat.strongRecOn with
  | ind value ih =>
      rw [Nat.toDigits_eq_if (by decide)]
      split
      next small =>
        simp only [List.head?_cons, ne_eq, Option.some.injEq, Nat.digitChar_eq_zero]
        omega
      next large =>
        have earlier := ih (value / 10) (by omega) (by omega)
        rw [List.head?_append]
        cases head : (Nat.toDigits 10 (value / 10)).head? with
        | none => exact absurd (List.head?_eq_none_iff.mp head) Nat.toDigits_ne_nil
        | some first =>
            rw [head] at earlier
            simpa using earlier

theorem isDigit_toDigits (value : Nat) :
    ∀ character ∈ Nat.toDigits 10 value, character.isDigit = true :=
  fun _ member => Nat.isDigit_of_mem_toDigits (by decide) (by decide) member

theorem whole_toDigits (value : Nat) {rest : List Char} (ends : Ends rest) :
    whole (Nat.toDigits 10 value ++ rest) = some (value, rest) := by
  rcases Nat.eq_zero_or_pos value with rfl | positive
  · rfl
  · have head := toDigits_head positive
    have read := ends.digits (isDigit_toDigits value)
    have same : Nat.ofDigitChars 10 (Nat.toDigits 10 value) 0 = value :=
      Nat.ofDigitChars_ten_toDigits
    cases found : Nat.toDigits 10 value with
    | nil => exact absurd found Nat.toDigits_ne_nil
    | cons first later =>
        rw [found] at head read same
        rw [whole]
        · rw [read]
          simp [same]
        · intro rest starts
          simp only [List.cons_append, List.cons.injEq] at starts
          exact head (by rw [starts.1]; rfl)

theorem magnitude_toDigits (value : Nat) {rest : List Char} (ends : Ends rest) :
    magnitude (Nat.toDigits 10 value ++ rest) = some ((true, (value : Rat)), rest) := by
  have noFraction : fraction rest = (none, rest) := by
    cases ends <;> rfl
  have noPower : power rest = (none, rest) := by
    cases ends <;> rfl
  simp [magnitude, whole_toDigits value ends, noFraction, noPower]

/-- No word begins with a digit. -/
theorem scalar_digit {text : List Char} {first : Char} (isDigit : first.isDigit = true) :
    scalar (first :: text) = number (first :: text) := by
  have differs : ∀ letter : Char, letter.isDigit = false → (letter == first) = false := by
    intro letter other
    rw [beq_eq_false_iff_ne]
    rintro rfl
    rw [isDigit] at other
    cases other
  simp [scalar, words, List.isPrefixOf, differs]

theorem toDigits_cons (value : Nat) :
    ∃ first later, Nat.toDigits 10 value = first :: later ∧ first.isDigit = true := by
  cases found : Nat.toDigits 10 value with
  | nil => exact absurd found Nat.toDigits_ne_nil
  | cons first later =>
      refine ⟨first, later, rfl, isDigit_toDigits value first ?_⟩
      rw [found]
      exact List.mem_cons_self

/-- An integer that was written is read. -/
theorem scalar_toDigits (value : Nat) {rest : List Char} (ends : Ends rest) :
    scalar (Nat.toDigits 10 value ++ rest) = some (.number true value, rest) := by
  obtain ⟨first, later, found, isDigit⟩ := toDigits_cons value
  have read := magnitude_toDigits value ends
  rw [found, List.cons_append] at read ⊢
  rw [scalar_digit isDigit, number, read]
  · rfl
  · intro text starts
    rw [(List.cons.inj starts).1] at isDigit
    cases isDigit

theorem scalar_neg_toDigits (value : Nat) {rest : List Char} (ends : Ends rest) :
    scalar ('-' :: (Nat.toDigits 10 value ++ rest)) = some (.number true (-value), rest) := by
  obtain ⟨first, later, found, isDigit⟩ := toDigits_cons value
  have read := magnitude_toDigits value ends
  rw [found, List.cons_append] at read ⊢
  have differs : ('I' == first) = false := by
    rw [beq_eq_false_iff_ne]
    rintro rfl
    cases isDigit
  simp [scalar, words, List.isPrefixOf, differs, number, read]

end Numbers

section Objects

theorem skip_of_not_space {character : Char} {rest : List Char}
    (other : isSpace character = false) : skip (character :: rest) = character :: rest := by
  simp [skip, other]

/-- A scalar that was written is read. -/
theorem value_written (scalar : Scalar) {rest : List Char} (ends : Ends rest) (fuel : Nat) :
    value (fuel + 1) (scalar.written ++ rest) = some (scalar.read, rest) := by
  cases scalar with
  | text text => simp [Scalar.written, quoted, value, string_quoted, Scalar.read]
  | integer number =>
      cases number with
      | ofNat number =>
          have read := scalar_toDigits number ends
          obtain ⟨first, later, found, isDigit⟩ := toDigits_cons number
          simp only [Scalar.written, found, List.cons_append] at read ⊢
          rw [value, read]
          · rfl
          all_goals
            intro text starts
            rw [(List.cons.inj starts).1] at isDigit
            cases isDigit
      | negSucc number =>
          have read := scalar_neg_toDigits (number + 1) ends
          simp only [Scalar.written, List.cons_append]
          rw [value, read]
          · rfl
          all_goals
            rintro text ⟨⟩

theorem skip_written (scalar : Scalar) (rest : List Char) :
    skip (scalar.written ++ rest) = scalar.written ++ rest := by
  cases scalar with
  | text text => exact skip_of_not_space rfl
  | integer number =>
      cases number with
      | ofNat number =>
          obtain ⟨first, later, found, isDigit⟩ := toDigits_cons number
          simp only [Scalar.written, found, List.cons_append]
          refine skip_of_not_space ?_
          simp only [isSpace, Bool.or_eq_false_iff, beq_eq_false_iff_ne]
          refine ⟨⟨⟨?_, ?_⟩, ?_⟩, ?_⟩
          all_goals
            rintro rfl
            cases isDigit
      | negSucc number => exact skip_of_not_space rfl

/-- A text that is read as the value, whatever ends it. -/
structure Written (text : List Char) (found : Value) : Prop where
  value : ∀ {rest : List Char}, Ends rest → ∀ fuel,
    JsonText.value (fuel + 1) (text ++ rest) = some (found, rest)
  starts : ∀ rest, skip (text ++ rest) = text ++ rest

theorem Written.of_scalar (scalar : Scalar) : Written scalar.written scalar.read :=
  ⟨fun ends fuel => value_written scalar ends fuel, skip_written scalar⟩

theorem Written.rawQuoted (text : String) : Written (rawQuoted text) (.str text) := by
  refine ⟨fun _ fuel => ?_, fun rest => skip_of_not_space rfl⟩
  simp [JsonText.rawQuoted, JsonText.value, string_rawQuoted]

theorem Written.null : Written ['n', 'u', 'l', 'l'] .null := by
  refine ⟨fun {rest} _ fuel => ?_, fun rest => skip_of_not_space rfl⟩
  have word : scalar ('n' :: 'u' :: 'l' :: 'l' :: rest) = some (.null, rest) := by
    simp [scalar, words]
  simp only [List.cons_append, List.nil_append]
  rw [JsonText.value, word]
  all_goals
    rintro text ⟨⟩

/-- What follows a member of an object. -/
def afterMember (fuel : Nat) (field : String × Value) :
    List Char → Option (List (String × Value) × List Char)
  | ',' :: rest => (members fuel (skip rest)).map fun read => (field :: read.1, read.2)
  | '}' :: rest => some ([field], rest)
  | _ => none

/-- One member that was written is read. -/
theorem members_step (key : String) {text : List Char} {found : Value} (written : Written text found)
    {rest : List Char} (ends : Ends rest) (fuel : Nat) :
    members (fuel + 2) (quoted key ++ ':' :: text ++ rest) =
      afterMember (fuel + 1) (key, found) rest := by
  have colon : skip (':' :: (text ++ rest)) = ':' :: (text ++ rest) := skip_of_not_space rfl
  have after : skip rest = rest := by
    cases ends <;> exact skip_of_not_space rfl
  simp only [quoted, List.cons_append, List.append_assoc, List.nil_append, members,
    string_quoted, colon, written.starts, written.value ends, after, Option.bind_eq_bind,
    Option.bind_some]
  cases ends with
  | comma rest =>
      simp only [afterMember]
      cases members (fuel + 1) (skip rest) <;> rfl
  | brace rest => rfl

/-- A member with the text it is written as and the value it is read as. -/
abbrev Field := String × List Char × Value

/-- The members of an object as they are written. -/
def joinFields (fields : List Field) : List Char :=
  match fields with
  | [] => []
  | [(key, text, _)] => quoted key ++ ':' :: text
  | (key, text, _) :: rest => quoted key ++ ':' :: text ++ ',' :: joinFields rest

theorem members_joined {fields : List Field} (written : ∀ field ∈ fields, Written field.2.1 field.2.2)
    (some_ : fields ≠ []) (rest : List Char) {fuel : Nat} (enough : fields.length < fuel) :
    members fuel (joinFields fields ++ '}' :: rest) =
      some (fields.map (fun field => (field.1, field.2.2)), rest) := by
  induction fields generalizing fuel with
  | nil => exact absurd rfl some_
  | cons field later ih =>
      obtain ⟨fuel, rfl⟩ : ∃ rest, fuel = rest + 2 :=
        ⟨fuel - 2, by simp only [List.length_cons] at enough; omega⟩
      obtain ⟨key, text, found⟩ := field
      have here : Written text found := written _ List.mem_cons_self
      cases later with
      | nil => exact members_step key here (.brace rest) fuel
      | cons next later =>
          have read : members (fuel + 1) (joinFields (next :: later) ++ '}' :: rest) = _ :=
            ih (fun field member => written field (List.mem_cons_of_mem _ member)) (by simp)
              (by simpa using enough)
          have step := members_step key here (.comma (joinFields (next :: later) ++ '}' :: rest)) fuel
          have starts : skip (joinFields (next :: later) ++ '}' :: rest) =
              joinFields (next :: later) ++ '}' :: rest := by
            obtain ⟨nextKey, nextText, nextFound⟩ := next
            cases later <;> exact skip_of_not_space rfl
          simp only [afterMember, starts, read] at step
          rw [joinFields]
          · simpa using step
          · simp

theorem length_joinFields (fields : List Field) : fields.length ≤ (joinFields fields).length := by
  induction fields with
  | nil => simp
  | cons field later ih =>
      obtain ⟨key, text, found⟩ := field
      cases later with
      | nil => simp [joinFields, quoted]
      | cons next later =>
          rw [joinFields]
          · simp only [List.length_cons, List.length_append] at ih ⊢
            omega
          · simp

theorem joinFields_starts {fields : List Field} (some_ : fields ≠ []) (after : List Char) :
    ∃ rest, joinFields fields ++ after = '"' :: rest := by
  cases fields with
  | nil => exact absurd rfl some_
  | cons field later =>
      obtain ⟨key, text, found⟩ := field
      cases later <;> exact ⟨_, rfl⟩

/-- An object whose members are written is read. -/
theorem read_joinFields {fields : List Field} (written : ∀ field ∈ fields, Written field.2.1 field.2.2)
    (some_ : fields ≠ []) :
    read (String.ofList ('{' :: joinFields fields ++ ['}'])) =
      some (.obj (fields.map fun field => (field.1, field.2.2))) := by
  have reads := members_joined written some_ []
    (show fields.length < ('{' :: joinFields fields ++ ['}']).length by
      have := length_joinFields fields
      simp only [List.length_cons, List.length_append]
      omega)
  obtain ⟨rest, isQuote⟩ := joinFields_starts some_ ['}']
  rw [read, String.toList_ofList]
  generalize ('{' :: joinFields fields ++ ['}']).length = fuel at reads ⊢
  rw [isQuote] at reads
  have brace : isSpace '{' = false := by decide
  have quote_ : isSpace '"' = false := by decide
  have none : skip [] = [] := rfl
  rw [List.cons_append, isQuote, skip_of_not_space brace, value, skip_of_not_space quote_]
  simp only [Option.bind_eq_bind]
  split
  next closed => exact absurd (List.cons.inj closed).1 (by decide)
  next => simp only [reads, Option.bind_some, Option.pure_def, none, if_true]

/-- A member that is a scalar. -/
def scalarField (field : String × Scalar) : Field := (field.1, field.2.written, field.2.read)

theorem writtenFields_eq (fields : List (String × Scalar)) :
    writtenFields fields = joinFields (fields.map scalarField) := by
  induction fields with
  | nil => rfl
  | cons field later ih =>
      obtain ⟨key, scalar⟩ := field
      cases later with
      | nil => rfl
      | cons next later =>
          rw [writtenFields, ih]
          · rfl
          · simp

/-- The members in the order they are written. -/
def sorted (fields : List (String × Scalar)) : List (String × Scalar) :=
  fields.insertionSort fun first second => first.1 ≤ second.1

theorem sorted_ne_nil {fields : List (String × Scalar)} (some_ : fields ≠ []) :
    sorted fields ≠ [] := by
  intro empty
  have length := List.length_insertionSort (fun first second : String × Scalar =>
    first.1 ≤ second.1) fields
  rw [← sorted, empty] at length
  exact some_ (List.length_eq_zero_iff.mp length.symm)

theorem dumpsInOrder_starts {fields : List (String × Scalar)} (some_ : fields ≠ []) :
    ∃ rest, (dumpsInOrder fields).toList = '{' :: '"' :: rest := by
  have members : fields.map scalarField ≠ [] := by simpa
  obtain ⟨rest, starts⟩ := joinFields_starts members ['}']
  refine ⟨rest, ?_⟩
  rw [dumpsInOrder, writtenFields_eq, String.toList_ofList, List.cons_append, starts]

theorem dumps_eq (fields : List (String × Scalar)) :
    dumps fields = dumpsInOrder (sorted fields) := rfl

/-- An object that was written is read. -/
theorem read_dumpsInOrder {fields : List (String × Scalar)} (some_ : fields ≠ []) :
    read (dumpsInOrder fields) = some (.obj
      (fields.map fun field => (field.1, field.2.read))) := by
  have written : ∀ field ∈ fields.map scalarField, Written field.2.1 field.2.2 := by
    intro field member
    obtain ⟨source, -, rfl⟩ := List.mem_map.mp member
    exact .of_scalar source.2
  rw [dumpsInOrder, writtenFields_eq, read_joinFields written (by simpa), List.map_map]
  rfl

theorem read_dumps {fields : List (String × Scalar)} (some_ : fields ≠ []) :
    read (dumps fields) = some (.obj
      ((sorted fields).map fun field => (field.1, field.2.read))) := by
  rw [dumps_eq, read_dumpsInOrder (sorted_ne_nil some_)]

end Objects

/-! ## How the text of an object begins -/

section Starts

/-- The characters that an object begins with. -/
def isStarter (character : Char) : Bool :=
  isSpace character || character == '{' || character == '}' || character == '"'

theorem scalar_ne_obj {text rest : List Char} {fields : List (String × Value)} :
    scalar text ≠ some (.obj fields, rest) := by
  have numbers : number text ≠ some (.obj fields, rest) := by
    unfold number
    split <;> simp
  unfold scalar
  split
  next word found =>
    have known := List.mem_of_find?_eq_some found
    simp only [words, List.mem_cons, List.not_mem_nil, or_false] at known
    rcases known with rfl | rfl | rfl | rfl | rfl | rfl <;> simp
  next => exact numbers

theorem exists_of_skip {text rest : List Char} {character : Char}
    (skipped : skip text = character :: rest) (starter : isStarter character = true) :
    ∃ first later, text = first :: later ∧ isStarter first = true := by
  cases text with
  | nil => cases skipped
  | cons first later =>
      refine ⟨first, later, rfl, ?_⟩
      by_cases space : isSpace first = true
      · simp [isStarter, space]
      · rw [skip_of_not_space (by simpa using space)] at skipped
        rw [(List.cons.inj skipped).1]
        exact starter

theorem members_starts {fuel : Nat} {text : List Char}
    {read : List (String × Value) × List Char} (found : members fuel text = some read) :
    ∃ later, text = '"' :: later := by
  unfold members at found
  split at found
  next fuel text => exact ⟨text, rfl⟩
  next => cases found

theorem value_obj {fuel : Nat} {text rest : List Char} {fields : List (String × Value)}
    (found : value fuel text = some (.obj fields, rest)) :
    ∃ first later, text = '{' :: first :: later ∧ isStarter first = true := by
  unfold value at found
  split at found
  next => cases found
  next fuel later =>
    cases read : string later <;> simp [read] at found
  next fuel later =>
    split at found
    next closed =>
      obtain ⟨first, more, rfl, starter⟩ := exists_of_skip closed (by decide)
      exact ⟨first, more, rfl, starter⟩
    next more open_ =>
      cases read : members fuel (skip later) with
      | none => simp [read] at found
      | some result =>
          obtain ⟨more, quote⟩ := members_starts read
          obtain ⟨first, more, rfl, starter⟩ := exists_of_skip quote (by decide)
          exact ⟨first, more, rfl, starter⟩
  next fuel later =>
    split at found
    next => cases found
    next more open_ =>
      cases read : items fuel (skip later) <;> simp [read] at found
  next => exact absurd found scalar_ne_obj

/-- The text of an object begins with two ASCII characters. -/
theorem read_obj_starts {text : String} {fields : List (String × Value)}
    (found : read text = some (.obj fields)) :
    ∃ first second later, text.toList = first :: second :: later ∧ isStarter first = true ∧
      isStarter second = true := by
  unfold read at found
  obtain ⟨⟨result, rest⟩, reads, ends⟩ := Option.bind_eq_some_iff.mp found
  have isObject : result = .obj fields := by
    simp only at ends
    split at ends
    · exact Option.some.inj ends
    · cases ends
  subst isObject
  obtain ⟨second, later, skipped, starter⟩ := value_obj reads
  cases shape : text.toList with
  | nil =>
      rw [shape] at skipped
      cases skipped
  | cons first more =>
      rw [shape] at skipped
      by_cases space : isSpace first = true
      · have further : skip more = '{' :: second :: later := by
          simpa [skip, space] using skipped
        obtain ⟨next, more, rfl, starts⟩ := exists_of_skip further (by decide)
        exact ⟨first, next, more, rfl, by simp [isStarter, space], starts⟩
      · rw [skip_of_not_space (by simpa using space)] at skipped
        cases skipped
        exact ⟨'{', second, later, rfl, by decide, starter⟩

end Starts

end JsonText
