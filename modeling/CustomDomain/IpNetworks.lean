import CustomDomain.PythonIpAddress
import Mathlib.Data.List.DropRight

/-!
# Printed addresses and networks

`str` of the addresses and the networks of Python's `ipaddress` module.  An IPv6 address is
printed with its longest run of zero hextets left out.
-/

namespace PythonIp

open PythonText

/-- `"%x"`. -/
def hexText (value : Nat) : String := String.ofList (Nat.toDigits 16 value)

def ipv4Text (value : Nat) : String :=
  ".".intercalate
    ([value / 2 ^ 24, value / 2 ^ 16 % 256, value / 2 ^ 8 % 256, value % 256].map toString)

/-- The runs of `"0"` that `_compress_hextets` has seen: the longest, and the current one. -/
structure ZeroRuns where
  bestStart : Nat := 0
  bestLength : Nat := 0
  start : Nat := 0
  length : Nat := 0

def ZeroRuns.next (runs : ZeroRuns) (index : Nat) (hextet : String) : ZeroRuns :=
  if hextet = "0" then
    let start := if runs.length = 0 then index else runs.start
    let length := runs.length + 1
    if runs.bestLength < length then ⟨start, length, start, length⟩
    else ⟨runs.bestStart, runs.bestLength, start, length⟩
  else ⟨runs.bestStart, runs.bestLength, 0, 0⟩

def zeroRuns : Nat → ZeroRuns → List String → ZeroRuns
  | _, runs, [] => runs
  | index, runs, hextet :: rest => zeroRuns (index + 1) (runs.next index hextet) rest

/-- `_compress_hextets`. -/
def compressHextets (hextets : List String) : List String :=
  let runs := zeroRuns 0 {} hextets
  if 1 < runs.bestLength then
    let stop := runs.bestStart + runs.bestLength
    let hextets := if stop = hextets.length then hextets ++ [""] else hextets
    let hextets := hextets.take runs.bestStart ++ [""] ++ hextets.drop stop
    if runs.bestStart = 0 then "" :: hextets else hextets
  else hextets

def hextetsOf (value : Nat) : List Nat :=
  [value / 2 ^ 112, value / 2 ^ 96 % 65536, value / 2 ^ 80 % 65536, value / 2 ^ 64 % 65536,
    value / 2 ^ 48 % 65536, value / 2 ^ 32 % 65536, value / 2 ^ 16 % 65536, value % 65536]

def ipv6Text (value : Nat) (scope : Option String) : String :=
  ":".intercalate (compressHextets ((hextetsOf value).map hexText)) ++
    match scope with
    | some scope => "%" ++ scope
    | none => ""

/-- The scope id of an IPv6 address. -/
def scopeId (text : String) : Option String :=
  match split '%' text with
  | [_, scope] => some scope
  | _ => none

/-- `str(ip_network(f"{ip}/{prefixlen}", strict=False))` for an IPv6 address: the scope id stays
when no bit of the host part is set. -/
def ipv6NetworkText (value : Nat) (scope : Option String) (prefixlen : Nat) : String :=
  let network := value / 2 ^ (128 - prefixlen) * 2 ^ (128 - prefixlen)
  ipv6Text network (if network = value then scope else none) ++ "/" ++ toString prefixlen

/-! ## What a printed number says -/

theorem hexDigit_digitChar {digit : Nat} (small : digit < 16) :
    hexDigit (Nat.digitChar digit) = digit ∧ isHexDigit (Nat.digitChar digit) = true := by
  revert digit
  decide

theorem digitsValue_toDigits (value : Nat) :
    digitsValue 16 hexDigit (Nat.toDigits 16 value) = value := by
  induction value using Nat.base_induction 16 (by decide) with
  | single digit small =>
      rw [Nat.toDigits_of_lt_base small]
      simp [digitsValue, (hexDigit_digitChar small).1]
  | digit value digit small positive ih =>
      rw [← Nat.toDigits_append_toDigits (by decide) positive small,
        Nat.toDigits_of_lt_base small]
      unfold digitsValue at *
      rw [List.foldl_append, ih, List.foldl_cons, List.foldl_nil, (hexDigit_digitChar small).1]
      omega

theorem isHexDigit_toDigits (value : Nat) :
    ∀ character ∈ Nat.toDigits 16 value, isHexDigit character = true := by
  induction value using Nat.base_induction 16 (by decide) with
  | single digit small =>
      rw [Nat.toDigits_of_lt_base small]
      intro character member
      rw [List.mem_singleton.mp member]
      exact (hexDigit_digitChar small).2
  | digit value digit small positive ih =>
      rw [← Nat.toDigits_append_toDigits (by decide) positive small,
        Nat.toDigits_of_lt_base small]
      intro character member
      rcases List.mem_append.mp member with earlier | last
      · exact ih character earlier
      · rw [List.mem_singleton.mp last]
        exact (hexDigit_digitChar small).2

theorem hexText_injective {first second : Nat} (same : hexText first = hexText second) :
    first = second := by
  rw [← digitsValue_toDigits first, ← digitsValue_toDigits second, String.ofList_injective same]

theorem hexText_zero : hexText 0 = "0" := rfl

theorem hexText_no_colon (value : Nat) : ':' ∉ (hexText value).toList := by
  rw [hexText, String.toList_ofList]
  exact fun inside => absurd (isHexDigit_toDigits value ':' inside) (by decide)

theorem hexText_ne_empty (value : Nat) : hexText value ≠ "" := by
  intro empty
  have letters := congrArg String.toList empty
  rw [hexText, String.toList_ofList] at letters
  exact Nat.toDigits_ne_nil letters

theorem toString_injective {first second : Nat} (same : toString first = toString second) :
    first = second := by
  rw [Nat.toString_eq_ofList_toDigits, Nat.toString_eq_ofList_toDigits] at same
  rw [← Nat.ofDigitChars_ten_toDigits (n := first), String.ofList_injective same,
    Nat.ofDigitChars_ten_toDigits]

theorem toString_digits (value : Nat) :
    ∀ character ∈ (toString value).toList, character.isDigit = true := by
  rw [Nat.toString_eq_ofList_toDigits, String.toList_ofList]
  exact fun character => Nat.isDigit_of_mem_toDigits (by decide) (by decide)

/-! ## What a joined text says -/

theorem split_joined {separator : Char} {pieces : List String}
    (absent : ∀ piece ∈ pieces, separator ∉ piece.toList) (some_ : pieces ≠ []) :
    split separator ((String.singleton separator).intercalate pieces) = pieces := by
  have lists : ∀ piece ∈ pieces.map String.toList, separator ∉ piece := by
    intro piece member
    obtain ⟨text, inside, rfl⟩ := List.mem_map.mp member
    exact absent text inside
  rw [split, String.toList_intercalate, String.toList_singleton,
    List.splitOn_intercalate separator lists (by simpa using some_), List.map_map]
  exact List.map_id'' (fun text => String.ofList_toList) pieces

theorem ipv4Text_injective {first second : Nat} (same : ipv4Text first = ipv4Text second) :
    first = second := by
  have pieces (value : Nat) : split '.' (ipv4Text value) =
      [value / 2 ^ 24, value / 2 ^ 16 % 256, value / 2 ^ 8 % 256, value % 256].map toString := by
    refine split_joined (fun piece member inside => ?_) (by simp)
    obtain ⟨number, -, rfl⟩ := List.mem_map.mp member
    exact absurd (toString_digits number '.' inside) (by decide)
  have parts := congrArg (split '.') same
  rw [pieces, pieces] at parts
  have numbers := List.map_injective_iff.mpr (fun _ _ => toString_injective) parts
  simp only [List.cons.injEq, and_true] at numbers
  omega

/-! ## The network of an address -/

/-- The hextets of a network that are printed before its `::`. -/
def shown (leading : List Nat) : List Nat := leading.rdropWhile (· = 0)

theorem shown_append (leading : List Nat) :
    ∃ count, shown leading ++ List.replicate count 0 = leading := by
  refine ⟨(leading.rtakeWhile (· = 0)).length, ?_⟩
  have zeros : leading.rtakeWhile (· = 0) =
      List.replicate (leading.rtakeWhile (· = 0)).length 0 := by
    refine List.eq_replicate_iff.mpr ⟨rfl, fun value member => ?_⟩
    simpa using List.mem_rtakeWhile_imp member
  rw [← zeros]
  exact List.rdropWhile_append_rtakeWhile ..

theorem shown_injective {first second : List Nat} (lengths : first.length = second.length)
    (same : shown first = shown second) : first = second := by
  obtain ⟨firstCount, firstParts⟩ := shown_append first
  obtain ⟨secondCount, secondParts⟩ := shown_append second
  have counts : firstCount = secondCount := by
    have firstLength := congrArg List.length firstParts
    have secondLength := congrArg List.length secondParts
    simp only [List.length_append, List.length_replicate, same] at firstLength secondLength
    omega
  rw [← firstParts, ← secondParts, same, counts]

theorem hexText_eq_zero_iff {value : Nat} : hexText value = "0" ↔ value = 0 :=
  ⟨fun same => hexText_injective (same.trans hexText_zero.symm), fun zero => zero ▸ hexText_zero⟩

theorem mem_compressHextets {hextets : List String} {piece : String}
    (member : piece ∈ compressHextets hextets) : piece = "" ∨ piece ∈ hextets := by
  unfold compressHextets at member
  grind

theorem compressHextets_ne_nil {hextets : List String} (some_ : hextets ≠ []) :
    compressHextets hextets ≠ [] := by
  simp only [compressHextets]
  split
  next => split <;> simp
  next => exact some_

/-- The last four hextets of a network are its longest run of zeros. -/
theorem compress_network (first second third fourth : Nat) :
    (compressHextets ([first, second, third, fourth, 0, 0, 0, 0].map hexText)).filter (· ≠ "") =
      (shown [first, second, third, fourth]).map hexText := by
  by_cases zeroFirst : first = 0 <;> by_cases zeroSecond : second = 0 <;>
    by_cases zeroThird : third = 0 <;> by_cases zeroFourth : fourth = 0 <;>
    simp [compressHextets, zeroRuns, ZeroRuns.next, hexText_eq_zero_iff, hexText_ne_empty, shown,
      List.rdropWhile, zeroFirst, zeroSecond, zeroThird, zeroFourth]

/-- The printed network names its first four hextets. -/
theorem networkText_injective {first second third fourth first' second' third' fourth' : Nat}
    (same : ":".intercalate
        (compressHextets ([first, second, third, fourth, 0, 0, 0, 0].map hexText)) =
      ":".intercalate
        (compressHextets ([first', second', third', fourth', 0, 0, 0, 0].map hexText))) :
    [first, second, third, fourth] = [first', second', third', fourth'] := by
  have pieces (hextets : List Nat) (some_ : hextets.map hexText ≠ []) :
      split ':' (":".intercalate (compressHextets (hextets.map hexText))) =
        compressHextets (hextets.map hexText) := by
    refine split_joined (fun piece member => ?_) (compressHextets_ne_nil some_)
    rcases mem_compressHextets member with empty | inside
    · rw [empty]
      decide
    · obtain ⟨hextet, -, rfl⟩ := List.mem_map.mp inside
      exact hexText_no_colon hextet
  have parts := congrArg (split ':') same
  rw [pieces _ (by simp), pieces _ (by simp)] at parts
  have kept := congrArg (List.filter (· ≠ "")) parts
  rw [compress_network, compress_network] at kept
  exact shown_injective rfl (List.map_injective_iff.mpr (fun _ _ => hexText_injective) kept)

/-- The first four hextets of an address. -/
def leadingHextets (value : Nat) : Nat × Nat × Nat × Nat :=
  (value / 2 ^ 112, value / 2 ^ 96 % 65536, value / 2 ^ 80 % 65536, value / 2 ^ 64 % 65536)

theorem leadingHextets_injective {first second : Nat}
    (same : leadingHextets first = leadingHextets second) :
    first / 2 ^ 64 = second / 2 ^ 64 := by
  simp only [leadingHextets, Prod.mk.injEq] at same
  omega

theorem hextetsOf_network (value : Nat) :
    hextetsOf (value / 2 ^ 64 * 2 ^ 64) =
      [(leadingHextets value).1, (leadingHextets value).2.1, (leadingHextets value).2.2.1,
        (leadingHextets value).2.2.2, 0, 0, 0, 0] := by
  simp only [hextetsOf, leadingHextets, List.cons.injEq, and_true]
  omega

/-- Networks with the same text have the same first 64 bits. -/
theorem ipv6Text_injective {first second : Nat}
    (same : ipv6Text (first / 2 ^ 64 * 2 ^ 64) none = ipv6Text (second / 2 ^ 64 * 2 ^ 64) none) :
    first / 2 ^ 64 = second / 2 ^ 64 := by
  simp only [ipv6Text, String.append_empty, hextetsOf_network] at same
  have leading := networkText_injective same
  simp only [List.cons.injEq, and_true] at leading
  exact leadingHextets_injective
    (Prod.ext leading.1 (Prod.ext leading.2.1 (Prod.ext leading.2.2.1 leading.2.2.2)))

/-- Without scope ids, networks are printed alike when they are the same. -/
theorem ipv6NetworkText_eq_iff {prefixlen : Nat} (short : prefixlen ≤ 64) (first second : Nat) :
    ipv6NetworkText first none prefixlen = ipv6NetworkText second none prefixlen ↔
      first / 2 ^ (128 - prefixlen) = second / 2 ^ (128 - prefixlen) := by
  have aligned (value : Nat) : value / 2 ^ (128 - prefixlen) * 2 ^ (128 - prefixlen) =
      value / 2 ^ (128 - prefixlen) * 2 ^ (128 - prefixlen) / 2 ^ 64 * 2 ^ 64 := by
    have powers : 2 ^ (128 - prefixlen) = 2 ^ (64 - prefixlen) * 2 ^ 64 := by
      rw [← Nat.pow_add]
      congr 1
      omega
    refine (Nat.div_mul_cancel ?_).symm
    rw [powers, ← Nat.mul_assoc]
    exact Nat.dvd_mul_left _ _
  constructor
  · intro same
    simp only [ipv6NetworkText, ite_self] at same
    have texts := (String.append_left_inj _).mp ((String.append_left_inj _).mp same)
    rw [aligned first, aligned second] at texts
    have networks : first / 2 ^ (128 - prefixlen) * 2 ^ (128 - prefixlen) =
        second / 2 ^ (128 - prefixlen) * 2 ^ (128 - prefixlen) := by
      rw [aligned first, aligned second, ipv6Text_injective texts]
    exact Nat.eq_of_mul_eq_mul_right (Nat.two_pow_pos _) networks
  · intro same
    rw [ipv6NetworkText, ipv6NetworkText, same, ite_self, ite_self]

end PythonIp
