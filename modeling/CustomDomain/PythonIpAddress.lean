import CustomDomain.PythonText
import Mathlib.Algebra.Group.Nat.Defs

/-!
# Python's `ipaddress` module

Parsing of IPv4 and IPv6 addresses as `ipaddress.ip_address` does it, the
tables behind `is_global`, and the printed form of networks.
-/

namespace PythonIp

inductive IpAddress where
  | v4 (value : Nat)
  | v6 (value : Nat)
  deriving DecidableEq, Repr

namespace IpAddress

def version : IpAddress → Nat
  | .v4 _ => 4
  | .v6 _ => 6

def value : IpAddress → Nat
  | .v4 value => value
  | .v6 value => value

end IpAddress

/-- The value of a text of digits in base `base`, most significant first. -/
def digitsValue (base : Nat) (digit : Char → Nat) (text : List Char) : Nat :=
  text.foldl (fun total character => total * base + digit character) 0

def decimalDigit (character : Char) : Nat := character.toNat - '0'.toNat

def isHexDigit (character : Char) : Bool :=
  character.isDigit || ('a' ≤ character && character ≤ 'f') || ('A' ≤ character && character ≤ 'F')

def hexDigit (character : Char) : Nat :=
  if character.isDigit then character.toNat - '0'.toNat
  else if 'a' ≤ character then character.toNat - 'a'.toNat + 10
  else character.toNat - 'A'.toNat + 10

/-- One octet of a dotted quad: at most three ASCII digits, no leading zero,
at most 255. -/
def parseOctet (text : String) : Option Nat :=
  let characters := text.toList
  if characters.isEmpty || !characters.all Char.isDigit || 3 < characters.length ||
      (text != "0" && characters.head? == some '0') then
    none
  else
    let value := digitsValue 10 decimalDigit characters
    if 255 < value then none else some value

def parseIpv4 (text : String) : Option Nat :=
  match PythonText.split '.' text with
  | [first, second, third, fourth] => do
      let first ← parseOctet first
      let second ← parseOctet second
      let third ← parseOctet third
      let fourth ← parseOctet fourth
      return ((first * 256 + second) * 256 + third) * 256 + fourth
  | _ => none

def parseHextet (text : String) : Option Nat :=
  let characters := text.toList
  if characters.isEmpty || !characters.all isHexDigit || 4 < characters.length then none
  else some (digitsValue 16 hexDigit characters)

/-- The hextets before and after a `::`, or all eight of them. -/
def splitCompressed (parts : List String) : Option (List String × List String) :=
  let inner := (List.range parts.length).filter fun index =>
    1 ≤ index && index + 1 < parts.length && parts[index]? == some ""
  match inner with
  | [] =>
      if parts.length = 8 ∧ parts.head? ≠ some "" ∧ parts.getLast? ≠ some "" then
        some (parts, [])
      else none
  | [skip] =>
      let before := parts.take skip
      let after := parts.drop (skip + 1)
      let high := if before.head? = some "" then before.tail else before
      let low := if after.getLast? = some "" then after.dropLast else after
      if before.head? = some "" ∧ high ≠ [] then none
      else if after.getLast? = some "" ∧ low ≠ [] then none
      else if 8 ≤ high.length + low.length then none
      else some (high, low)
  | _ => none

/-- A dotted quad in the last part stands for two hextets. -/
def expandSuffix (parts : List String) : Option (List Nat × List String) :=
  match parts.getLast? with
  | some last =>
      if last.toList.contains '.' then do
        let quad ← parseIpv4 last
        return ([quad / 65536, quad % 65536], parts.dropLast ++ ["0", "0"])
      else some ([], parts)
  | none => none

/-- The address without its scope id; an empty or repeated one is refused, and one with a slash. -/
def splitScope (text : String) : Option String :=
  match PythonText.split '%' text with
  | [address] => some address
  | [address, scope] =>
      if scope.isEmpty || scope.toList.contains '/' then none else some address
  | _ => none

def parseHextets (address : String) : Option Nat :=
  let parts := PythonText.split ':' address
  if parts.length < 3 then none
  else do
    let (suffix, parts) ← expandSuffix parts
    if 9 < parts.length then none
    else
      let (high, low) ← splitCompressed parts
      let high ← high.mapM parseHextet
      let low ← low.mapM parseHextet
      let filled := high ++ List.replicate (8 - high.length - low.length) 0 ++ low
      let hextets := filled.take (8 - suffix.length) ++ suffix
      return hextets.foldl (fun total hextet => total * 65536 + hextet) 0

def parseIpv6 (text : String) : Option Nat :=
  (splitScope text).bind parseHextets

/-- `ipaddress.ip_address`, or `none` where it raises `ValueError`. -/
def ipAddress (text : String) : Option IpAddress :=
  match parseIpv4 text with
  | some value => some (.v4 value)
  | none => (parseIpv6 text).map .v6

/-- Whether `value` lies in the network that shares its first `prefixlen` of
`width` bits with `network`. -/
def inNetwork (width value network prefixlen : Nat) : Bool :=
  value / 2 ^ (width - prefixlen) == network / 2 ^ (width - prefixlen)

def quad (first second third fourth : Nat) : Nat :=
  ((first * 256 + second) * 256 + third) * 256 + fourth

/-- A 128-bit value from its leading hextets. -/
def hextets (leading : List Nat) : Nat :=
  (leading ++ List.replicate (8 - leading.length) 0).foldl
    (fun total hextet => total * 65536 + hextet) 0

def ipv4PrivateNetworks : List (Nat × Nat) :=
  [(quad 0 0 0 0, 8), (quad 10 0 0 0, 8), (quad 127 0 0 0, 8), (quad 169 254 0 0, 16),
    (quad 172 16 0 0, 12), (quad 192 0 0 0, 24), (quad 192 0 0 170, 31), (quad 192 0 2 0, 24),
    (quad 192 168 0 0, 16), (quad 198 18 0 0, 15), (quad 198 51 100 0, 24),
    (quad 203 0 113 0, 24), (quad 240 0 0 0, 4), (quad 255 255 255 255, 32)]

def ipv4PrivateExceptions : List (Nat × Nat) :=
  [(quad 192 0 0 9, 32), (quad 192 0 0 10, 32)]

def ipv6PrivateNetworks : List (Nat × Nat) :=
  [(1, 128), (0, 128), (hextets [0, 0, 0, 0, 0, 0xffff], 96), (hextets [0x64, 0xff9b, 1], 48),
    (hextets [0x100], 64), (hextets [0x2001], 23), (hextets [0x2001, 0xdb8], 32),
    (hextets [0x2002], 16), (hextets [0x3fff], 20), (hextets [0xfc00], 7), (hextets [0xfe80], 10)]

def ipv6PrivateExceptions : List (Nat × Nat) :=
  [(hextets [0x2001, 1, 0, 0, 0, 0, 0, 1], 128), (hextets [0x2001, 1, 0, 0, 0, 0, 0, 2], 128),
    (hextets [0x2001, 3], 32), (hextets [0x2001, 4, 0x112], 48), (hextets [0x2001, 0x20], 28),
    (hextets [0x2001, 0x30], 28)]

def inAny (width value : Nat) (networks : List (Nat × Nat)) : Bool :=
  networks.any fun network => inNetwork width value network.1 network.2

def ipv4IsGlobal (value : Nat) : Bool :=
  !inNetwork 32 value (quad 100 64 0 0) 10 &&
    !(inAny 32 value ipv4PrivateNetworks && !inAny 32 value ipv4PrivateExceptions)

/-- `is_global`; an IPv4-mapped IPv6 address is judged by the IPv4 one. -/
def IpAddress.isGlobal : IpAddress → Bool
  | .v4 value => ipv4IsGlobal value
  | .v6 value =>
      if value / 2 ^ 32 = 0xffff then ipv4IsGlobal (value % 2 ^ 32)
      else !(inAny 128 value ipv6PrivateNetworks && !inAny 128 value ipv6PrivateExceptions)

/-! ## What never parses -/

theorem splitScope_mem {text address : String} (found : splitScope text = some address) :
    address ∈ PythonText.split '%' text := by
  unfold splitScope at found
  split at found
  next only shape => simp_all
  next first scope shape => split at found <;> simp_all
  next => cases found

/-- Without a colon there are too few parts for an IPv6 address. -/
theorem parseIpv6_of_no_colon {text : String} (noColon : ':' ∉ text.toList) :
    parseIpv6 text = none := by
  unfold parseIpv6
  cases found : splitScope text with
  | none => rfl
  | some address =>
      have absent : ':' ∉ address.toList := fun inside =>
        noColon (PythonText.mem_of_mem_split (splitScope_mem found) inside)
      simp [parseHextets, PythonText.split_of_none absent]

/-- The last label of a name that parses as an IPv4 address is a number. -/
theorem isDigit_of_parseIpv4 {text : String} {value : Nat} (parsed : parseIpv4 text = some value) :
    ∃ last, (PythonText.split '.' text).getLast? = some last ∧ PythonText.isDigit last = true := by
  unfold parseIpv4 at parsed
  split at parsed
  next first second third fourth shape =>
    refine ⟨fourth, by rw [shape]; rfl, ?_⟩
    have octet : (parseOctet fourth).isSome := by
      simp only [Option.bind_eq_bind, Option.bind_eq_some_iff] at parsed
      obtain ⟨_, _, _, _, _, _, octet, parsed, _⟩ := parsed
      simp [parsed]
    unfold parseOctet at octet
    simp only at octet
    split at octet
    next refused => simp at octet
    next accepted =>
      simp only [Bool.or_eq_true, not_or, Bool.not_eq_true] at accepted
      simp only [PythonText.isDigit, accepted.1.1.1, Bool.not_false, Bool.true_and]
      simpa using accepted.1.1.2
  next => cases parsed

end PythonIp
