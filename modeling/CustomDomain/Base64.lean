import Mathlib.Data.List.Basic

/-!
# Base64

The encoding of bytes in groups of six bits, the decoder of CPython
(`binascii.a2b_base64`, not strict) and the one of the Web (`atob`).  The decoders
read the same groups; `gather` says which.
-/

namespace Base64

/-- The characters of the standard alphabet. -/
def digit (value : Nat) : Char :=
  if value < 26 then Char.ofNat (65 + value)
  else if value < 52 then Char.ofNat (71 + value)
  else if value < 62 then Char.ofNat (value - 4)
  else if value = 62 then '+'
  else '/'

/-- What a character of the alphabet stands for. -/
def value? (character : Char) : Option Nat :=
  if 65 ≤ character.toNat ∧ character.toNat ≤ 90 then some (character.toNat - 65)
  else if 97 ≤ character.toNat ∧ character.toNat ≤ 122 then some (character.toNat - 71)
  else if 48 ≤ character.toNat ∧ character.toNat ≤ 57 then some (character.toNat + 4)
  else if character = '+' then some 62
  else if character = '/' then some 63
  else none

theorem value?_digit : ∀ value < 64, value? (digit value) = some value := by
  decide

/-! ## Groups of six bits -/

/-- Bytes in groups of six bits, the last one filled up with zeros. -/
def unpack : List UInt8 → List Nat
  | [] => []
  | [a] => [a.toNat / 4, a.toNat % 4 * 16]
  | [a, b] => [a.toNat / 4, a.toNat % 4 * 16 + b.toNat / 16, b.toNat % 16 * 4]
  | a :: b :: c :: rest =>
      a.toNat / 4 :: (a.toNat % 4 * 16 + b.toNat / 16) :: (b.toNat % 16 * 4 + c.toNat / 64) ::
        c.toNat % 64 :: unpack rest

/-- The bytes in groups of six bits; the bits left over are dropped. -/
def pack : List Nat → List UInt8
  | [] => []
  | [_] => []
  | [v, w] => [UInt8.ofNat (v * 4 + w / 16)]
  | [v, w, x] => [UInt8.ofNat (v * 4 + w / 16), UInt8.ofNat (w % 16 * 16 + x / 4)]
  | v :: w :: x :: y :: rest =>
      UInt8.ofNat (v * 4 + w / 16) :: UInt8.ofNat (w % 16 * 16 + x / 4) ::
        UInt8.ofNat (x % 4 * 64 + y) :: pack rest

theorem ofNat_toNat_of_eq {value : Nat} (byte : UInt8) (same : value = byte.toNat) :
    UInt8.ofNat value = byte := by
  rw [same, UInt8.ofNat_toNat]

theorem pack_unpack (bytes : List UInt8) : pack (unpack bytes) = bytes := by
  induction bytes using unpack.induct with
  | case1 => rfl
  | case2 a =>
      have := a.toNat_lt
      simp only [unpack, pack]
      rw [ofNat_toNat_of_eq a (by omega)]
  | case3 a b =>
      have := a.toNat_lt
      have := b.toNat_lt
      simp only [unpack, pack]
      rw [ofNat_toNat_of_eq a (by omega), ofNat_toNat_of_eq b (by omega)]
  | case4 a b c rest ih =>
      have := a.toNat_lt
      have := b.toNat_lt
      have := c.toNat_lt
      simp only [unpack, pack, ih]
      rw [ofNat_toNat_of_eq a (by omega), ofNat_toNat_of_eq b (by omega),
        ofNat_toNat_of_eq c (by omega)]

theorem unpack_lt (bytes : List UInt8) : ∀ value ∈ unpack bytes, value < 64 := by
  induction bytes using unpack.induct with
  | case1 => simp [unpack]
  | case2 a =>
      have := a.toNat_lt
      simp only [unpack, List.mem_cons, List.not_mem_nil, or_false]
      omega
  | case3 a b =>
      have := a.toNat_lt
      have := b.toNat_lt
      simp only [unpack, List.mem_cons, List.not_mem_nil, or_false]
      omega
  | case4 a b c rest ih =>
      have := a.toNat_lt
      have := b.toNat_lt
      have := c.toNat_lt
      intro value member
      simp only [unpack, List.mem_cons] at member
      rcases member with rfl | rfl | rfl | rfl | later
      · omega
      · omega
      · omega
      · omega
      · exact ih value later

/-! ## Decoders -/

/-- `binascii.a2b_base64`: `quad` characters of a group were read, `left` holds
the bits of the last one that no byte has yet. -/
def scan (quad left pads : Nat) (bytes : List UInt8) : List Char → Option (List UInt8)
  | [] => if quad = 0 then some bytes else none
  | character :: rest =>
      if character = '=' then
        if 2 ≤ quad then
          if 4 ≤ quad + (pads + 1) then some bytes else scan quad left (pads + 1) bytes rest
        else scan quad left pads bytes rest
      else
        match value? character with
        | none => scan quad left pads bytes rest
        | some value =>
            match quad with
            | 0 => scan 1 value 0 bytes rest
            | 1 => scan 2 (value % 16) 0 (bytes ++ [UInt8.ofNat (left * 4 + value / 16)]) rest
            | 2 => scan 3 (value % 4) 0 (bytes ++ [UInt8.ofNat (left * 16 + value / 4)]) rest
            | _ => scan 0 0 0 (bytes ++ [UInt8.ofNat (left * 64 + value)]) rest

def a2b (text : List Char) : Option (List UInt8) := scan 0 0 0 [] text

/-- The groups that a decoder reads: characters outside the alphabet are skipped,
and a complete padding ends the text. -/
def gather (group : List Nat) (pads : Nat) : List Char → Option (List Nat)
  | [] => if group = [] then some [] else none
  | character :: rest =>
      if character = '=' then
        if 2 ≤ group.length then
          if 4 ≤ group.length + (pads + 1) then some group else gather group (pads + 1) rest
        else gather group pads rest
      else
        match value? character with
        | none => gather group pads rest
        | some value =>
            if group.length = 3 then (gather [] 0 rest).map ((group ++ [value]) ++ ·)
            else gather (group ++ [value]) 0 rest

/-- `atob` of characters of the alphabet. -/
def atob (characters : List Char) : Option (List UInt8) :=
  if characters.length % 4 = 1 then none
  else (characters.mapM value?).map pack

section Gather

variable {group : List Nat} {pads value : Nat} {character : Char} {rest : List Char}

theorem gather_pad (group : List Nat) (pads : Nat) (rest : List Char) :
    gather group pads ('=' :: rest) =
      if 2 ≤ group.length then
        if 4 ≤ group.length + (pads + 1) then some group else gather group (pads + 1) rest
      else gather group pads rest := by
  simp [gather]

theorem gather_skip (other : character ≠ '=') (outside : value? character = none) :
    gather group pads (character :: rest) = gather group pads rest := by
  simp [gather, other, outside]

theorem gather_value (inside : value? character = some value) :
    gather group pads (character :: rest) =
      if group.length = 3 then (gather [] 0 rest).map ((group ++ [value]) ++ ·)
      else gather (group ++ [value]) 0 rest := by
  have other : character ≠ '=' := by
    rintro rfl
    cases inside
  simp [gather, other, inside]

end Gather

/-- CPython's decoder, at the start of a group and within one. -/
theorem scan_eq_gather (text : List Char) :
    (∀ left pads bytes, scan 0 left pads bytes text =
      (gather [] pads text).map fun values => bytes ++ pack values) ∧
    (∀ v pads bytes, scan 1 v pads bytes text =
      (gather [v] pads text).map fun values => bytes ++ pack values) ∧
    (∀ v w pads bytes, scan 2 (w % 16) pads (bytes ++ [UInt8.ofNat (v * 4 + w / 16)]) text =
      (gather [v, w] pads text).map fun values => bytes ++ pack values) ∧
    ∀ v w x pads bytes, scan 3 (x % 4) pads (bytes ++ [UInt8.ofNat (v * 4 + w / 16)] ++
        [UInt8.ofNat (w % 16 * 16 + x / 4)]) text =
      (gather [v, w, x] pads text).map fun values => bytes ++ pack values := by
  induction text with
  | nil => simp [scan, gather, pack]
  | cons character rest ih =>
      obtain ⟨start, one, two, three⟩ := ih
      by_cases isPad : character = '='
      · subst isPad
        refine ⟨?_, ?_, ?_, ?_⟩
        · intro left pads bytes
          exact start left pads bytes
        · intro v pads bytes
          exact one v pads bytes
        · intro v w pads bytes
          by_cases ends : 4 ≤ 2 + (pads + 1)
          · simp [scan, gather_pad, ends, pack]
          · simp only [scan, gather_pad, ends, List.length_cons, List.length_nil]
            exact two v w (pads + 1) bytes
        · intro v w x pads bytes
          have ends : 4 ≤ 3 + (pads + 1) := by omega
          simp [scan, gather_pad, ends, pack]
      · cases read : value? character with
        | none =>
            simp only [scan, isPad, read, gather_skip isPad read, if_false]
            exact ⟨start, one, two, three⟩
        | some value =>
            simp only [scan, isPad, read, gather_value read, if_false]
            refine ⟨?_, ?_, ?_, ?_⟩
            · intro left pads bytes
              exact one value 0 bytes
            · intro v pads bytes
              exact two v value 0 bytes
            · intro v w pads bytes
              exact three v w value 0 bytes
            · intro v w x pads bytes
              rw [start]
              simp [Function.comp_def, pack]

theorem a2b_eq (text : List Char) : a2b text = (gather [] 0 text).map pack := by
  rw [a2b, (scan_eq_gather text).1]
  rfl

/-! ## The encoding is undone -/

/-- The padding of a text of that length. -/
def padding (length : Nat) : List Char := List.replicate ((4 - length % 4) % 4) '='

/-- The groups of the bytes, without padding. -/
def encode (bytes : List UInt8) : List Char := (unpack bytes).map digit

theorem gather_digit {value : Nat} (small : value < 64) (group : List Nat) (pads : Nat)
    (rest : List Char) :
    gather group pads (digit value :: rest) =
      if group.length = 3 then (gather [] 0 rest).map ((group ++ [value]) ++ ·)
      else gather (group ++ [value]) 0 rest :=
  gather_value (value?_digit value small)

theorem gather_group {v w x y : Nat} (first : v < 64) (second : w < 64) (third : x < 64)
    (fourth : y < 64) (pads : Nat) (rest : List Char) :
    gather [] pads (digit v :: digit w :: digit x :: digit y :: rest) =
      (gather [] 0 rest).map ([v, w, x, y] ++ ·) := by
  simp [gather_digit, first, second, third, fourth]

theorem gather_encode (bytes : List UInt8) :
    gather [] 0 (encode bytes ++ padding (encode bytes).length) = some (unpack bytes) := by
  have small := unpack_lt bytes
  unfold encode padding
  induction bytes using unpack.induct with
  | case1 => rfl
  | case2 a =>
      simp only [unpack, List.mem_cons, List.not_mem_nil, or_false, forall_eq_or_imp,
        forall_eq] at small
      simp [unpack, gather_digit, gather_pad, small]
  | case3 a b =>
      simp only [unpack, List.mem_cons, List.not_mem_nil, or_false, forall_eq_or_imp,
        forall_eq] at small
      simp [unpack, gather_digit, gather_pad, small]
  | case4 a b c rest ih =>
      simp only [unpack, List.mem_cons, forall_eq_or_imp] at small
      obtain ⟨first, second, third, fourth, later⟩ := small
      have length : ∀ length, (length + 1 + 1 + 1 + 1) % 4 = length % 4 := by omega
      simp only [unpack, List.map_cons, List.length_cons, List.cons_append, length]
      rw [gather_group first second third fourth, ih later]
      rfl

theorem mapM_encode (bytes : List UInt8) : (encode bytes).mapM value? = some (unpack bytes) := by
  have small := unpack_lt bytes
  rw [encode]
  generalize unpack bytes = values at small
  induction values with
  | nil => rfl
  | cons value rest ih =>
      rw [List.forall_mem_cons] at small
      rw [List.map_cons, List.mapM_cons, value?_digit value small.1, ih small.2]
      rfl

theorem length_encode (bytes : List UInt8) : (encode bytes).length = (4 * bytes.length + 2) / 3 := by
  rw [encode, List.length_map]
  induction bytes using unpack.induct with
  | case1 => rfl
  | case2 a => simp [unpack]
  | case3 a b => simp [unpack]
  | case4 a b c rest ih =>
      simp only [unpack, List.length_cons, ih]
      omega

theorem pad_not_mem_encode (bytes : List UInt8) : '=' ∉ encode bytes := by
  have other : ∀ value < 64, digit value ≠ '=' := by decide
  intro pad
  obtain ⟨value, inside, same⟩ := List.mem_map.mp pad
  exact other value (unpack_lt bytes value inside) same

/-! ## The URL-safe alphabet -/

def toUrlsafe (character : Char) : Char :=
  if character = '+' then '-' else if character = '/' then '_' else character

def ofUrlsafe (character : Char) : Char :=
  if character = '-' then '+' else if character = '_' then '/' else character

/-- `base64.urlsafe_b64encode`. -/
def urlsafeEncode (bytes : List UInt8) : List Char :=
  (encode bytes ++ padding (encode bytes).length).map toUrlsafe

/-- `base64.urlsafe_b64decode`; only ASCII text is decoded at all. -/
def urlsafeDecode (text : List Char) : Option (List UInt8) :=
  if text.all fun character => character.toNat < 128 then a2b (text.map ofUrlsafe) else none

theorem ofUrlsafe_toUrlsafe : ∀ value < 64, ofUrlsafe (toUrlsafe (digit value)) = digit value := by
  decide

theorem toUrlsafe_facts : ∀ value < 64, (toUrlsafe (digit value)).toNat < 128 ∧
    toUrlsafe (digit value) ≠ '.' ∧ toUrlsafe (digit value) ≠ '=' := by
  decide

/-- The encoding is ASCII, without dots or padding. -/
theorem encode_facts {bytes : List UInt8} : ∀ character ∈ (encode bytes).map toUrlsafe,
    character.toNat < 128 ∧ character ≠ '.' ∧ character ≠ '=' := by
  intro character member
  simp only [encode, List.map_map, List.mem_map] at member
  obtain ⟨value, inside, rfl⟩ := member
  exact toUrlsafe_facts value (unpack_lt bytes value inside)

theorem urlsafeDecode_encode (bytes : List UInt8) :
    urlsafeDecode ((encode bytes).map toUrlsafe ++ padding ((encode bytes).map toUrlsafe).length) =
      some bytes := by
  have undone : ((encode bytes).map toUrlsafe).map ofUrlsafe = encode bytes := by
    simp only [encode, List.map_map]
    refine List.map_congr_left fun value inside => ?_
    exact ofUrlsafe_toUrlsafe value (unpack_lt bytes value inside)
  have pads : (padding (encode bytes).length).map ofUrlsafe = padding (encode bytes).length := by
    simp [padding, ofUrlsafe]
  rw [urlsafeDecode, if_pos, List.map_append, undone, List.length_map, pads, a2b_eq,
    gather_encode, Option.map_some, pack_unpack]
  rw [List.all_append, Bool.and_eq_true, List.all_eq_true, List.all_eq_true]
  refine ⟨fun character member => ?_, fun character member => ?_⟩
  · exact decide_eq_true (encode_facts character member).1
  · rw [List.eq_of_mem_replicate member]
    rfl

end Base64
