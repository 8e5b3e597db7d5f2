import CustomDomain.DoubleRounding
import CustomDomain.PythonText

/-!
# Texts and numbers of JavaScript

`trim`, and doubles with the two infinities and NaN, up to the sign of zero, as far as whole
numbers need them: the difference, the comparison, and the text of a number, which
has the fewest digits that are read as it.  Up to `2 ^ 53 - 1` all of them are those
of the integers.
-/

namespace JavaScript

open DoubleRounding

/-- The white space that `String.prototype.trim` removes. -/
def isTrimmed (character : Char) : Bool :=
  let code := character.toNat
  (9 ≤ code && code ≤ 13) || code == 32 || code == 0xA0 || code == 0x1680 ||
    (0x2000 ≤ code && code ≤ 0x200A) || code == 0x2028 || code == 0x2029 || code == 0x202F ||
    code == 0x205F || code == 0x3000 || code == 0xFEFF

/-- `String.prototype.trim`. -/
def trimmed (text : String) : String := String.ofList (PythonText.trim isTrimmed text.toList)

/-- The values of the type `number`. -/
inductive Number where
  | finite (value : ℚ)
  | infinite (negative : Bool)
  | nan
  deriving DecidableEq

/-- The number nearest to a value, an infinite one where it is too large. -/
def ofRat (value : ℚ) : Number :=
  if isFinite value then .finite (toDouble value) else .infinite (value < 0)

def ofInt (value : ℤ) : Number := ofRat value

def Number.sub : Number → Number → Number
  | .finite first, .finite second => ofRat (first - second)
  | .finite _, .infinite negative => .infinite !negative
  | .infinite negative, .finite _ => .infinite negative
  | .infinite first, .infinite second => if first = second then .nan else .infinite first
  | .nan, _ => .nan
  | _, .nan => .nan

/-- `Math.abs`. -/
def Number.abs : Number → Number
  | .finite value => .finite |value|
  | .infinite _ => .infinite false
  | .nan => .nan

/-- `Math.floor`. -/
def Number.floor : Number → Number
  | .finite value => .finite ⌊value⌋
  | other => other

/-- `first > second`: false of NaN. -/
def Number.exceeds : Number → Number → Bool
  | .finite first, .finite second => second < first
  | .finite _, .infinite negative => negative
  | .infinite negative, .finite _ => !negative
  | .infinite first, .infinite second => !first && second
  | .nan, _ => false
  | _, .nan => false

/-! ## The text of a number -/

/-- The multiples of a power of ten around a value, the nearer one first. -/
def neighbours (value places : ℕ) : List ℕ :=
  let below := value / 10 ^ places
  if 2 * (value % 10 ^ places) ≤ 10 ^ places then [below, below + 1] else [below + 1, below]

/-- The fewest digits that are read as a value, and the power of ten they count;
`places` is the largest power to try. -/
def shortest (value : ℕ) : ℕ → ℕ × ℕ
  | 0 => (value, 0)
  | places + 1 =>
      match (neighbours value (places + 1)).find? fun digits =>
          toDouble ((digits * 10 ^ (places + 1) : ℕ) : ℚ) = value with
      | some digits => (digits, places + 1)
      | none => shortest value places

/-- `String` of a positive whole number: decimal digits up to 21 places, and an
exponent from there on. -/
def wholeText (value : ℕ) : List Char :=
  let (digits, places) := shortest value (Nat.toDigits 10 value).length
  let written := Nat.toDigits 10 digits
  if written.length + places ≤ 21 then written ++ List.replicate places '0'
  else
    let exponent := "e+".toList ++ Nat.toDigits 10 (written.length + places - 1)
    match written with
    | first :: second :: rest => first :: '.' :: second :: rest ++ exponent
    | short => short ++ exponent

/-- `String` of a whole number. -/
def Number.text : Number → String
  | .nan => "NaN"
  | .infinite negative => if negative then "-Infinity" else "Infinity"
  | .finite value =>
      if value = 0 then "0"
      else if value < 0 then String.ofList ('-' :: wholeText value.num.natAbs)
      else String.ofList (wholeText value.num.natAbs)

/-! ## Safe integers -/

end JavaScript
