import CustomDomain.AssertionSdk

/-!
# The two decoders on every string

`base64urlDecode` of the TypeScript package and `_unb64` of the Python package, on the strings of
their languages: code units there, code points here, lone surrogates included.  `atob` is the
forgiving decoder of the Web in full.
-/

namespace Base64

/-! ## The forgiving decoder -/

/-- ASCII whitespace, which the decoder removes first. -/
def isAsciiSpace (character : Char) : Bool :=
  character.toNat == 9 || character.toNat == 10 || character.toNat == 12 ||
    character.toNat == 13 || character.toNat == 32

/-- A text of whole groups loses one or two final padding characters. -/
def dropPadding (text : List Char) : List Char :=
  if text.length % 4 = 0 then
    match text.reverse with
    | '=' :: '=' :: rest => rest.reverse
    | '=' :: rest => rest.reverse
    | _ => text
  else text

/-- The forgiving-base64 decode of the Web, or `none` for its failure. -/
def forgivingDecode (text : List Char) : Option (List UInt8) :=
  atob (dropPadding (text.filter fun character => !isAsciiSpace character))

section Forgiving

variable {text : List Char}

theorem value?_pad : value? '=' = none := by decide

theorem value?_space {character : Char} (space : isAsciiSpace character = true) :
    value? character = none := by
  simp only [isAsciiSpace, Bool.or_eq_true, beq_iff_eq] at space
  have other : ∀ sign : Char, sign.toNat ≠ 9 → sign.toNat ≠ 10 → sign.toNat ≠ 12 →
      sign.toNat ≠ 13 → sign.toNat ≠ 32 → character ≠ sign := by
    rintro sign _ _ _ _ _ rfl
    omega
  have plus := other '+' (by decide) (by decide) (by decide) (by decide) (by decide)
  have slash := other '/' (by decide) (by decide) (by decide) (by decide) (by decide)
  rw [value?, if_neg (by omega), if_neg (by omega), if_neg (by omega), if_neg plus, if_neg slash]

/-- Characters of the alphabet decode as they stand. -/
theorem forgivingDecode_of_alphabet (inside : ∀ character ∈ text, (value? character).isSome = true) :
    forgivingDecode text = atob text := by
  have kept : text.filter (fun character => !isAsciiSpace character) = text := by
    rw [List.filter_eq_self]
    intro character member
    cases space : isAsciiSpace character with
    | false => rfl
    | true =>
        have found := inside character member
        rw [value?_space space] at found
        cases found
  have unpadded : ∀ rest : List Char, text.reverse ≠ '=' :: rest := by
    intro rest same
    have member : '=' ∈ text := by
      rw [← List.mem_reverse, same]
      exact List.mem_cons_self
    have found := inside '=' member
    rw [value?_pad] at found
    cases found
  have same : dropPadding text = text := by
    unfold dropPadding
    split
    next =>
      split
      next rest ends => exact absurd ends (unpadded _)
      next rest ends => exact absurd ends (unpadded _)
      next => rfl
    next => rfl
  rw [forgivingDecode, kept, same]

end Forgiving

end Base64

namespace CustomDomain

open PythonText

/-! ## The strings of the two languages -/

/-- The code points of a string of code units; a surrogate that has no partner stays. -/
def codePoints : List UInt16 → List Nat
  | [] => []
  | [unit] => [unit.toNat]
  | high :: low :: rest =>
      if 0xD800 ≤ high.toNat ∧ high.toNat < 0xDC00 ∧ 0xDC00 ≤ low.toNat ∧ low.toNat < 0xE000 then
        (0x10000 + (high.toNat - 0xD800) * 0x400 + (low.toNat - 0xDC00)) :: codePoints rest
      else high.toNat :: codePoints (low :: rest)

namespace CodePoints

/-- `_unb64` on a string of code points, or `none` where it raises: the decoder of the standard
library refuses text that is not ASCII. -/
def unb64 (text : List Nat) : Option (List UInt8) :=
  let padded := text ++ List.replicate ((4 - text.length % 4) % 4) '='.toNat
  if padded.all (· < 128) then
    Base64.a2b ((padded.map Char.ofNat).map Base64.ofUrlsafe)
  else none

end CodePoints

namespace TypeScript.CodeUnits

/-- What `base64urlDecode` makes of the characters its loop collected. -/
def decodeData : List Char × Bool × Nat → Option (List UInt8)
  | (data, complete, quad) =>
      if complete = false ∧ quad ≠ 0 then none else Base64.forgivingDecode data

/-- `base64urlDecode` on a string of code units, or `none` for `null`. -/
def base64urlDecode (text : List UInt16) : Option (List UInt8) :=
  if text.all (·.toNat < 128) then
    let padded := text.map (fun unit => Char.ofNat unit.toNat) ++ Base64.padding text.length
    decodeData (collect [] 0 0 (padded.map Base64.ofUrlsafe))
  else none

end TypeScript.CodeUnits

/-! ## The same decoder -/

section Units

variable {text : List UInt16}

/-- Code units below the surrogates are code points. -/
theorem codePoints_of_ascii (ascii : ∀ unit ∈ text, unit.toNat < 128) :
    codePoints text = text.map UInt16.toNat := by
  induction text with
  | nil => rfl
  | cons high rest ih =>
      have later := ih fun unit member => ascii unit (List.mem_cons_of_mem _ member)
      have small := ascii high List.mem_cons_self
      cases rest with
      | nil => rfl
      | cons low rest =>
          rw [codePoints, if_neg (by omega), later]
          rfl

/-- A string with a unit outside ASCII has a code point outside ASCII. -/
theorem exists_of_not_ascii {unit : UInt16} (member : unit ∈ text) (large : 128 ≤ unit.toNat) :
    ∃ point ∈ codePoints text, 128 ≤ point := by
  induction text using codePoints.induct with
  | case1 => cases member
  | case2 single =>
      rw [List.mem_singleton] at member
      exact ⟨unit.toNat, by simp [codePoints, member], large⟩
  | case3 high low rest paired ih =>
      rw [codePoints, if_pos paired]
      exact ⟨_, List.mem_cons_self, by omega⟩
  | case4 high low rest unpaired ih =>
      rw [codePoints, if_neg unpaired]
      rcases List.mem_cons.mp member with rfl | later
      · exact ⟨unit.toNat, List.mem_cons_self, large⟩
      · obtain ⟨point, inside, large⟩ := ih later
        exact ⟨point, List.mem_cons_of_mem _ inside, large⟩

theorem toNat_ofNat_ascii : ∀ unit < 128, (Char.ofNat unit).toNat = unit := by
  decide

/-- Every character the loop collects is one of the alphabet. -/
theorem collect_alphabet (characters : List Char) (quad pads : Nat) {data : List Char}
    (inside : ∀ character ∈ data, (Base64.value? character).isSome = true) :
    ∀ character ∈ (TypeScript.collect data quad pads characters).1,
      (Base64.value? character).isSome = true := by
  induction characters generalizing quad pads data with
  | nil => exact inside
  | cons character rest ih =>
      rw [TypeScript.collect]
      split
      next =>
        split
        next =>
          split
          next => exact inside
          next => exact ih quad (pads + 1) inside
        next => exact ih quad pads inside
      next =>
        split
        next => exact ih quad pads inside
        next known =>
          apply ih
          intro other member
          rcases List.mem_append.mp member with old | new
          · exact inside other old
          · rw [List.mem_singleton.mp new]
            exact Option.isSome_iff_ne_none.mpr fun none => known (by rw [none]; rfl)

theorem decodeData_collect (characters : List Char) :
    TypeScript.CodeUnits.decodeData (TypeScript.collect [] 0 0 characters) =
      TypeScript.decodeCollected (TypeScript.collect [] 0 0 characters) := by
  have none : ∀ character ∈ ([] : List Char), (Base64.value? character).isSome = true :=
    fun _ member => by cases member
  have alphabet := collect_alphabet characters 0 0 none
  generalize TypeScript.collect [] 0 0 characters = reached at alphabet ⊢
  obtain ⟨data, quad, pads⟩ := reached
  unfold TypeScript.CodeUnits.decodeData TypeScript.decodeCollected
  simp only [Base64.forgivingDecode_of_alphabet alphabet]

/-- On ASCII both strings are the same text. -/
theorem base64urlDecode_ascii (ascii : ∀ unit ∈ text, unit.toNat < 128) :
    TypeScript.CodeUnits.base64urlDecode text = CodePoints.unb64 (codePoints text) := by
  let characters := text.map fun unit => Char.ofNat unit.toNat
  have small : (characters.all fun character => decide (character.toNat < 128)) = true := by
    rw [List.all_map, List.all_eq_true]
    intro unit member
    exact decide_eq_true ((toNat_ofNat_ascii _ (ascii unit member)).trans_lt (ascii unit member))
  have units : (text.all fun unit => decide (unit.toNat < 128)) = true := by
    rw [List.all_eq_true]
    exact fun unit member => decide_eq_true (ascii unit member)
  have script : TypeScript.CodeUnits.base64urlDecode text =
      TypeScript.base64urlDecode (String.ofList characters) := by
    rw [TypeScript.CodeUnits.base64urlDecode, TypeScript.base64urlDecode, if_pos units,
      String.toList_ofList, if_pos small, List.length_map]
    exact decodeData_collect _
  have python : CodePoints.unb64 (codePoints text) = unb64 (String.ofList characters) := by
    have points : (text.map UInt16.toNat).all (fun point => decide (point < 128)) = true := by
      rw [List.all_map]
      exact units
    have padded : (text.map UInt16.toNat ++
        List.replicate ((4 - (text.map UInt16.toNat).length % 4) % 4) '='.toNat).map Char.ofNat =
        characters ++ Base64.padding characters.length := by
      rw [List.map_append, List.map_map, List.map_replicate, Char.ofNat_toNat, Base64.padding,
        List.length_map, List.length_map]
      rfl
    rw [codePoints_of_ascii ascii, CodePoints.unb64, unb64, Base64.urlsafeDecode,
      String.toList_ofList]
    simp only [padded, List.all_append, points, small, Bool.true_and]
    simp [Base64.padding]
  rw [script, python, TypeScript.base64urlDecode_eq]

/-- A string that is not ASCII is refused by both. -/
theorem decoders_refuse {unit : UInt16} (member : unit ∈ text) (large : 128 ≤ unit.toNat) :
    TypeScript.CodeUnits.base64urlDecode text = none ∧ CodePoints.unb64 (codePoints text) = none := by
  constructor
  · rw [TypeScript.CodeUnits.base64urlDecode, if_neg]
    intro all
    have small := of_decide_eq_true (List.all_eq_true.mp all unit member)
    omega
  · obtain ⟨point, inside, large⟩ := exists_of_not_ascii member large
    simp only [CodePoints.unb64]
    rw [if_neg]
    intro all
    have small := of_decide_eq_true (List.all_eq_true.mp all point (List.mem_append_left _ inside))
    omega

end Units

/-- On every string the decoder of the TypeScript package returns `null` exactly where Python's
raises, and the same bytes otherwise. -/
theorem base64url_decoders_agree (text : List UInt16) :
    (TypeScript.CodeUnits.base64urlDecode text = none ↔
      CodePoints.unb64 (codePoints text) = none) ∧
      ∀ bytes, CodePoints.unb64 (codePoints text) = some bytes →
        TypeScript.CodeUnits.base64urlDecode text = some bytes := by
  have same : TypeScript.CodeUnits.base64urlDecode text = CodePoints.unb64 (codePoints text) := by
    by_cases ascii : ∀ unit ∈ text, unit.toNat < 128
    · exact base64urlDecode_ascii ascii
    · push Not at ascii
      obtain ⟨unit, member, large⟩ := ascii
      obtain ⟨script, python⟩ := decoders_refuse member large
      rw [script, python]
  rw [same]
  exact ⟨Iff.rfl, fun _ decoded => decoded⟩

/-- Padding in the middle ends the text, and a lone surrogate is refused. -/
example : TypeScript.CodeUnits.base64urlDecode ([0x51, 0x51, 0x3D, 0x3D, 0x51] : List UInt16) =
    some [0x41] ∧ TypeScript.CodeUnits.base64urlDecode ([0xD800] : List UInt16) = none := by
  decide

end CustomDomain
