import Mathlib.Data.List.DropRight

/-!
# Python string methods

The string methods of Python that the modelled code calls, over the list of
code points of a string, so that they reduce by evaluation.
-/

namespace PythonText

/-- `str.isspace` on one character: the Unicode white space that `str.strip`
removes. -/
def isSpace (character : Char) : Bool :=
  let code := character.toNat
  (9 ≤ code && code ≤ 13) || (28 ≤ code && code ≤ 32) || code == 0x85 || code == 0xA0 ||
    code == 0x1680 || (0x2000 ≤ code && code ≤ 0x200A) || code == 0x2028 || code == 0x2029 ||
    code == 0x202F || code == 0x205F || code == 0x3000

/-- Drop the characters that satisfy `test` from both ends. -/
def trim (test : Char → Bool) (text : List Char) : List Char :=
  (text.dropWhile test).rdropWhile test

/-- `str.strip()`. -/
def strip (text : String) : String :=
  String.ofList (trim isSpace text.toList)

/-- `str.strip(characters)`. -/
def stripOf (characters : List Char) (text : String) : String :=
  String.ofList (trim (fun character => characters.contains character) text.toList)

/-- `str.removesuffix(".")` and its like, for a suffix of one character. -/
def removeSuffix (suffix : Char) (text : String) : String :=
  if text.toList.getLast? = some suffix then String.ofList text.toList.dropLast else text

/-- `str.startswith`. -/
def startsWith (start text : String) : Bool :=
  start.toList.isPrefixOf text.toList

/-- `str.endswith`. -/
def endsWith (end_ text : String) : Bool :=
  end_.toList.isSuffixOf text.toList

/-- `str.removeprefix`. -/
def removePrefix (start text : String) : String :=
  if startsWith start text then String.ofList (text.toList.drop start.length) else text

/-- `str.split(separator)`, for a separator of one character. -/
def split (separator : Char) (text : String) : List String :=
  (text.toList.splitOn separator).map String.ofList

/-- `str.rsplit(separator, 1)`: the text around the last separator, or the
whole text when there is none. -/
def rsplitOnce (separator : Char) (text : String) : List String :=
  match text.toList.reverse.splitOn separator with
  | [] => [text]
  | [_] => [text]
  | last :: rest =>
      [String.ofList ([separator].intercalate rest).reverse, String.ofList last.reverse]

/-- `str.isdigit` on ASCII text. -/
def isDigit (text : String) : Bool :=
  !text.toList.isEmpty && text.toList.all Char.isDigit

/-- The zeros of the decimal digits of Unicode; the other nine follow each. -/
def decimalZeros : List Nat :=
  [0x30, 0x660, 0x6f0, 0x7c0, 0x966, 0x9e6, 0xa66, 0xae6, 0xb66, 0xbe6, 0xc66, 0xce6, 0xd66,
    0xde6, 0xe50, 0xed0, 0xf20, 0x1040, 0x1090, 0x17e0, 0x1810, 0x1946, 0x19d0, 0x1a80, 0x1a90,
    0x1b50, 0x1bb0, 0x1c40, 0x1c50, 0xa620, 0xa8d0, 0xa900, 0xa9d0, 0xa9f0, 0xaa50, 0xabf0,
    0xff10, 0x104a0, 0x10d30, 0x11066, 0x110f0, 0x11136, 0x111d0, 0x112f0, 0x11450, 0x114d0,
    0x11650, 0x116c0, 0x11730, 0x118e0, 0x11950, 0x11c50, 0x11d50, 0x11da0, 0x11f50, 0x16a60,
    0x16ac0, 0x16b50, 0x1d7ce, 0x1d7d8, 0x1d7e2, 0x1d7ec, 0x1d7f6, 0x1e140, 0x1e2f0, 0x1e4f0,
    0x1e950, 0x1fbf0]

/-- The digits of Unicode that are not decimal, such as superscripts. -/
def otherDigits : List (Nat × Nat) :=
  [(0xb2, 0xb3), (0xb9, 0xb9), (0x1369, 0x1371), (0x19da, 0x19da), (0x2070, 0x2070),
    (0x2074, 0x2079), (0x2080, 0x2089), (0x2460, 0x2468), (0x2474, 0x247c), (0x2488, 0x2490),
    (0x24ea, 0x24ea), (0x24f5, 0x24fd), (0x24ff, 0x24ff), (0x2776, 0x277e), (0x2780, 0x2788),
    (0x278a, 0x2792), (0x10a40, 0x10a43), (0x10e60, 0x10e68), (0x11052, 0x1105a),
    (0x1f100, 0x1f10a)]

/-- The value of a decimal digit. -/
def decimalValue? (character : Char) : Option Nat :=
  (decimalZeros.find? fun start => start ≤ character.toNat && character.toNat < start + 10).map
    fun start => character.toNat - start

/-- `str.isdigit`. -/
def isUnicodeDigit (text : String) : Bool :=
  !text.toList.isEmpty && text.toList.all fun character =>
    (decimalValue? character).isSome ||
      otherDigits.any fun range => range.1 ≤ character.toNat && character.toNat ≤ range.2

/-- `sys.get_int_max_str_digits()`: the conversions between text and integers raise a
`ValueError` beyond it. -/
def intMaxStrDigits : Nat := 4300

/-- `int` of a text of digits, or `none` where it raises: every digit has to be decimal,
and there are at most `sys.get_int_max_str_digits()` of them. -/
def intOfDigits (text : String) : Option Nat := do
  let digits ← text.toList.mapM decimalValue?
  if digits.length ≤ intMaxStrDigits then some (digits.foldl (fun total digit => 10 * total + digit) 0)
  else none

/-- `str.lower` on ASCII text. -/
def lower (text : String) : String :=
  String.ofList (text.toList.map Char.toLower)

/-- `str.partition(separator)`, or `none` where the separator is not found. -/
def partition (separator : Char) (text : String) : Option (String × String) :=
  match text.toList.dropWhile (· ≠ separator) with
  | [] => none
  | _ :: rest => some (String.ofList (text.toList.takeWhile (· ≠ separator)), String.ofList rest)

/-- `str.rstrip(character)`. -/
def rstripOf (character : Char) (text : String) : String :=
  String.ofList (text.toList.rdropWhile (· == character))

/-- `str.encode("utf-8")`. -/
def encodeUtf8 (text : String) : List UInt8 := text.toList.flatMap String.utf8EncodeChar

/-- `bytes.decode("utf-8")`, or `none` where it raises. -/
def decodeUtf8 (bytes : List UInt8) : Option String :=
  bytes.toByteArray.utf8Decode?.map fun characters => String.ofList characters.toList

/-- `str.isascii`. -/
def isAscii (text : String) : Bool := text.toList.all fun character => character.toNat < 128

/-- `hmac.compare_digest` of two texts, or `none` where it raises a `TypeError`. -/
def compareDigest (expected candidate : String) : Option Bool :=
  if isAscii expected && isAscii candidate then some (expected == candidate) else none

/-- `str.rpartition(separator)`, or `none` where the separator is not found. -/
def rpartition (separator : Char) (text : String) : Option (String × String) :=
  match text.toList.reverse.dropWhile (· ≠ separator) with
  | [] => none
  | _ :: before =>
      some (String.ofList before.reverse,
        String.ofList (text.toList.reverse.takeWhile (· ≠ separator)).reverse)

/-- A sequence of UTF-8 that has begun: how many bytes it still needs, the range of the
next one, and the bits so far. -/
structure Utf8State where
  needed : Nat
  low : Nat := 0x80
  high : Nat := 0xBF
  bits : Nat

/-- The first byte of a sequence: a character, a sequence that has begun, or neither. -/
def utf8Begin (byte : Nat) : Option (Char ⊕ Utf8State) :=
  if byte < 0x80 then some (.inl (Char.ofNat byte))
  else if byte < 0xC2 then none
  else if byte < 0xE0 then some (.inr { needed := 1, bits := byte - 0xC0 })
  else if byte = 0xE0 then some (.inr { needed := 2, low := 0xA0, bits := 0 })
  else if byte = 0xED then some (.inr { needed := 2, high := 0x9F, bits := 0xD })
  else if byte < 0xF0 then some (.inr { needed := 2, bits := byte - 0xE0 })
  else if byte = 0xF0 then some (.inr { needed := 3, low := 0x90, bits := 0 })
  else if byte < 0xF4 then some (.inr { needed := 3, bits := byte - 0xF0 })
  else if byte = 0xF4 then some (.inr { needed := 3, high := 0x8F, bits := 4 })
  else none

/-- The characters of some bytes, with U+FFFD for each sequence that breaks off. -/
def utf8Replace : Option Utf8State → List UInt8 → List Char
  | none, [] => []
  | some _, [] => ['\uFFFD']
  | none, byte :: rest =>
      match utf8Begin byte.toNat with
      | none => '\uFFFD' :: utf8Replace none rest
      | some (.inl character) => character :: utf8Replace none rest
      | some (.inr state) => utf8Replace (some state) rest
  | some state, byte :: rest =>
      if state.low ≤ byte.toNat ∧ byte.toNat ≤ state.high then
        let bits := 64 * state.bits + (byte.toNat - 0x80)
        if state.needed = 1 then Char.ofNat bits :: utf8Replace none rest
        else utf8Replace (some { needed := state.needed - 1, bits := bits }) rest
      else
        -- The byte that does not fit begins a sequence of its own.
        match utf8Begin byte.toNat with
        | none => '\uFFFD' :: '\uFFFD' :: utf8Replace none rest
        | some (.inl character) => '\uFFFD' :: character :: utf8Replace none rest
        | some (.inr state) => '\uFFFD' :: utf8Replace (some state) rest

/-- `bytes.decode("utf-8", "replace")`. -/
def decodeReplace (bytes : List UInt8) : String := String.ofList (utf8Replace none bytes)

/-- `mapping[key] = value`: a key keeps its place. -/
def assign {α : Type} (key : String) (value : α) : List (String × α) → List (String × α)
  | [] => [(key, value)]
  | (name, old) :: rest =>
      if name = key then (name, value) :: rest else (name, old) :: assign key value rest

/-- A property of the characters of a text, checked one by one. -/
theorem forall_of_all {text : List Char} {property : Char → Prop} [DecidablePred property]
    (all : text.all (fun character => decide (property character)) = true) :
    ∀ character ∈ text, property character :=
  fun character member => of_decide_eq_true (List.all_eq_true.mp all character member)

theorem trim_of_none {test : Char → Bool} {text : List Char}
    (none : ∀ character ∈ text, test character = false) : trim test text = text := by
  have left : text.dropWhile test = text := by
    rw [List.dropWhile_eq_self_iff]
    intro nonempty
    simp [none _ (List.getElem_mem nonempty)]
  have right : text.rdropWhile test = text := by
    rw [List.rdropWhile_eq_self_iff]
    intro nonempty
    simp [none _ (List.getLast_mem nonempty)]
  rw [trim, left, right]

theorem strip_of_none {text : String}
    (none : ∀ character ∈ text.toList, isSpace character = false) : strip text = text := by
  rw [strip, trim_of_none none, String.ofList_toList]

theorem stripOf_of_none {characters : List Char} {text : String}
    (none : ∀ character ∈ text.toList, character ∉ characters) :
    stripOf characters text = text := by
  rw [stripOf, trim_of_none, String.ofList_toList]
  intro character member
  simpa using none character member

theorem lower_of_none {text : String}
    (none : ∀ character ∈ text.toList, character.toLower = character) : lower text = text := by
  rw [lower, List.map_congr_left none, List.map_id', String.ofList_toList]

/-- A text without the separator is one piece. -/
theorem split_of_none {separator : Char} {text : String}
    (none : separator ∉ text.toList) : split separator text = [text] := by
  rw [split, List.splitOn_eq_singleton none]
  simp

theorem mem_intercalate {separator piece : List Char} {pieces : List (List Char)}
    {character : Char} (member : piece ∈ pieces) (inside : character ∈ piece) :
    character ∈ separator.intercalate pieces := by
  induction pieces with
  | nil => cases member
  | cons first rest ih =>
      cases rest with
      | nil => simp_all
      | cons second rest =>
          rw [List.intercalate_cons_cons]
          rcases List.mem_cons.mp member with here | later
          · simp [← here, inside]
          · simp [ih later]

theorem mem_of_mem_intercalate {separator : List Char} {pieces : List (List Char)}
    {character : Char} (member : character ∈ separator.intercalate pieces) :
    character ∈ separator ∨ ∃ piece ∈ pieces, character ∈ piece := by
  induction pieces with
  | nil => cases member
  | cons first rest ih =>
      cases rest with
      | nil =>
          rw [List.intercalate_singleton] at member
          exact .inr ⟨first, List.mem_singleton_self _, member⟩
      | cons second rest =>
          rw [List.intercalate_cons_cons, List.mem_append, List.mem_append] at member
          rcases member with (here | between) | later
          · exact .inr ⟨first, List.mem_cons_self, here⟩
          · exact .inl between
          · exact (ih later).imp_right fun ⟨piece, inside, found⟩ =>
              ⟨piece, List.mem_cons_of_mem _ inside, found⟩

/-- The characters of the pieces are characters of the text. -/
theorem mem_of_mem_split {separator character : Char} {text piece : String}
    (member : piece ∈ split separator text) (inside : character ∈ piece.toList) :
    character ∈ text.toList := by
  simp only [split, List.mem_map] at member
  obtain ⟨characters, member, rfl⟩ := member
  rw [String.toList_ofList] at inside
  have joined : [separator].intercalate (text.toList.splitOn separator) = text.toList :=
    List.intercalate_splitOn separator
  rw [← joined]
  exact mem_intercalate member inside

/-- A piece in front of the others. -/
theorem split_append {separator : Char} {first rest : String}
    (absent : separator ∉ first.toList) :
    split separator (first ++ String.singleton separator ++ rest) = first :: split separator rest := by
  have text : (first ++ String.singleton separator ++ rest).toList =
      first.toList ++ separator :: rest.toList := by simp
  rw [split, text, List.splitOn_append_cons_self_of_not_mem absent]
  simp [split]

/-- No piece has the separator in it. -/
theorem not_mem_of_mem_splitOn {separator : Char} {text piece : List Char}
    (member : piece ∈ text.splitOn separator) : separator ∉ piece := by
  induction text generalizing piece with
  | nil => simp_all
  | cons character rest ih =>
      rw [List.splitOn_cons_eq_if_modifyHead] at member
      split_ifs at member with here
      · rcases List.mem_cons.mp member with rfl | later
        · exact List.not_mem_nil
        · exact ih later
      · obtain ⟨first, others, pieces⟩ : ∃ first others, rest.splitOn separator = first :: others :=
          List.exists_cons_of_ne_nil (List.splitOn_ne_nil _ _)
        have inside : first ∈ rest.splitOn separator := by simp [pieces]
        rw [pieces, List.modifyHead_cons] at member
        rcases List.mem_cons.mp member with rfl | later
        · rw [List.mem_cons, not_or]
          exact ⟨fun same => here (by simp [same]), ih inside⟩
        · exact ih (by simp [pieces, later])

theorem rpartition_append {separator : Char} {first last : String}
    (absent : separator ∉ last.toList) :
    rpartition separator (first ++ String.singleton separator ++ last) = some (first, last) := by
  have text : (first ++ String.singleton separator ++ last).toList.reverse =
      last.toList.reverse ++ separator :: first.toList.reverse := by simp
  have kept : ∀ character ∈ last.toList.reverse, decide (character ≠ separator) = true := by
    intro character member
    refine decide_eq_true fun same => absent ?_
    simpa [same] using member
  rw [rpartition, text, List.dropWhile_append_of_pos kept, List.takeWhile_append_of_pos kept]
  simp

theorem of_rpartition {separator : Char} {text first last : String}
    (parts : rpartition separator text = some (first, last)) :
    text = first ++ String.singleton separator ++ last := by
  unfold rpartition at parts
  split at parts
  next => cases parts
  next head before rest =>
    cases parts
    have here : head = separator := by
      have stop := List.head?_dropWhile_not (fun character => decide (character ≠ separator))
        text.toList.reverse
      rw [rest] at stop
      simpa using stop
    have joined : text.toList.reverse.takeWhile (· ≠ separator) ++ separator :: before =
        text.toList.reverse := by
      have parts := List.takeWhile_append_dropWhile (p := (decide <| · ≠ separator))
        (l := text.toList.reverse)
      rwa [rest, here] at parts
    have whole := congrArg List.reverse joined
    rw [List.reverse_append, List.reverse_reverse] at whole
    apply String.toList_injective
    refine whole.symm.trans ?_
    simp

theorem rpartition_eq_none {separator : Char} {text : String} :
    rpartition separator text = none ↔ separator ∉ text.toList := by
  constructor
  · intro none inside
    unfold rpartition at none
    split at none
    next empty =>
      have all := List.dropWhile_eq_nil_iff.mp empty separator (by simpa using inside)
      simp at all
    next => cases none
  · intro absent
    have empty : text.toList.reverse.dropWhile (fun character => decide (character ≠ separator)) = [] := by
      refine List.dropWhile_eq_nil_iff.mpr fun character member => decide_eq_true fun same => absent ?_
      simpa [same] using member
    rw [rpartition, empty]

theorem decodeUtf8_encodeUtf8 (text : String) : decodeUtf8 (encodeUtf8 text) = some text := by
  have decoded : (encodeUtf8 text).toByteArray.utf8Decode? = some text.toList.toArray :=
    List.utf8Decode?_utf8Encode
  rw [decodeUtf8, decoded]
  simp

theorem encodeUtf8_of_decodeUtf8 {bytes : List UInt8} {text : String}
    (decoded : decodeUtf8 bytes = some text) : encodeUtf8 text = bytes := by
  obtain ⟨characters, found, rfl⟩ := Option.map_eq_some_iff.mp decoded
  have valid : (bytes.toByteArray.utf8Decode?).isSome = true := by
    rw [found]
    rfl
  have same : characters.toList.utf8Encode = bytes.toByteArray := by
    simpa [found] using ByteArray.utf8Encode_get_utf8Decode? (h := valid)
  rw [encodeUtf8, String.toList_ofList]
  exact List.toByteArray_inj.mp same

/-- A first byte of a sequence: how many bytes follow, and where the next one lies. -/
theorem utf8Replace_first {byte : Nat} (small : byte < 256) {state : Utf8State}
    (begins : utf8Begin byte = some (.inr state)) (rest : List UInt8) :
    utf8Replace none (UInt8.ofNat byte :: rest) = utf8Replace (some state) rest := by
  rw [utf8Replace, UInt8.toNat_ofNat_of_lt' small, begins]

/-- A byte in the middle of a sequence. -/
theorem utf8Replace_next {byte : Nat} {state : Utf8State} (low : state.low ≤ byte)
    (high : byte ≤ state.high) (small : byte < 256) (more : state.needed ≠ 1) (rest : List UInt8) :
    utf8Replace (some state) (UInt8.ofNat byte :: rest) = utf8Replace
      (some { needed := state.needed - 1, bits := 64 * state.bits + (byte - 0x80) }) rest := by
  rw [utf8Replace, UInt8.toNat_ofNat_of_lt' small, if_pos ⟨low, high⟩, if_neg more]

/-- The last byte of a sequence. -/
theorem utf8Replace_last {byte : Nat} {state : Utf8State} (low : state.low ≤ byte)
    (high : byte ≤ state.high) (small : byte < 256) (last : state.needed = 1) (rest : List UInt8) :
    utf8Replace (some state) (UInt8.ofNat byte :: rest) =
      Char.ofNat (64 * state.bits + (byte - 0x80)) :: utf8Replace none rest := by
  rw [utf8Replace, UInt8.toNat_ofNat_of_lt' small, if_pos ⟨low, high⟩, if_pos last]

theorem utf8Begin_three (byte : Nat) (low : 0xE0 ≤ byte) (high : byte < 0xF0) :
    utf8Begin byte = some (.inr ⟨2, if byte = 0xE0 then 0xA0 else 0x80,
      if byte = 0xED then 0x9F else 0xBF, byte - 0xE0⟩) := by
  unfold utf8Begin
  rw [if_neg (by omega), if_neg (by omega), if_neg (by omega)]
  by_cases first : byte = 0xE0
  · subst first
    rfl
  · by_cases surrogates : byte = 0xED
    · subst surrogates
      rfl
    · rw [if_neg first, if_neg first, if_neg surrogates, if_neg surrogates, if_pos high]

theorem utf8Begin_four (byte : Nat) (low : 0xF0 ≤ byte) (high : byte < 0xF5) :
    utf8Begin byte = some (.inr ⟨3, if byte = 0xF0 then 0x90 else 0x80,
      if byte = 0xF4 then 0x8F else 0xBF, byte - 0xF0⟩) := by
  unfold utf8Begin
  rw [if_neg (by omega), if_neg (by omega), if_neg (by omega), if_neg (by omega), if_neg (by omega),
    if_neg (by omega)]
  by_cases first : byte = 0xF0
  · subst first
    rfl
  · by_cases last : byte = 0xF4
    · subst last
      rfl
    · rw [if_neg first, if_neg first, if_neg last, if_neg last, if_pos (by omega)]

theorem utf8Replace_encodeChar (character : Char) (rest : List UInt8) :
    utf8Replace none (String.utf8EncodeChar character ++ rest) =
      character :: utf8Replace none rest := by
  have range : character.toNat < 0xD800 ∨
      (0xE000 ≤ character.toNat ∧ character.toNat < 0x110000) :=
    character.valid.imp_right fun high => ⟨high.1, high.2⟩
  have same : Char.ofNat character.toNat = character := Char.ofNat_toNat character
  have code : character.val.toNat = character.toNat := rfl
  unfold String.utf8EncodeChar
  simp only [code]
  generalize character.toNat = code at range same ⊢
  split_ifs with one two three
  · have begins : utf8Begin code = some (.inl character) := by
      rw [utf8Begin, if_pos (by omega), same]
    rw [List.singleton_append, utf8Replace, UInt8.toNat_ofNat_of_lt' (show code < 256 by omega),
      begins]
  · have begins : utf8Begin (code / 64 % 32 + 0xC0) =
        some (.inr { needed := 1, bits := code / 64 % 32 + 0xC0 - 0xC0 }) := by
      rw [utf8Begin, if_neg (by omega), if_neg (by omega), if_pos (by omega)]
    rw [List.cons_append, List.singleton_append, utf8Replace_first (by omega) begins,
      utf8Replace_last (by simp) (by simp; omega) (by omega) rfl]
    have whole : 64 * (code / 64 % 32 + 0xC0 - 0xC0) + (code % 64 + 0x80 - 0x80) = code := by omega
    rw [whole, same]
  · have begins := utf8Begin_three (code / 4096 % 16 + 0xE0) (by omega) (by omega)
    rw [List.cons_append, List.cons_append, List.singleton_append,
      utf8Replace_first (by omega) begins,
      utf8Replace_next (by dsimp only; split_ifs <;> omega) (by dsimp only; split_ifs <;> omega)
        (by omega) (by simp),
      utf8Replace_last (by simp) (by simp; omega) (by omega) rfl]
    have whole : 64 * (64 * (code / 4096 % 16 + 0xE0 - 0xE0) + (code / 64 % 64 + 0x80 - 0x80)) +
        (code % 64 + 0x80 - 0x80) = code := by omega
    rw [whole, same]
  · have begins := utf8Begin_four (code / 262144 % 8 + 0xF0) (by omega) (by omega)
    rw [List.cons_append, List.cons_append, List.cons_append, List.singleton_append,
      utf8Replace_first (by omega) begins,
      utf8Replace_next (by dsimp only; split_ifs <;> omega) (by dsimp only; split_ifs <;> omega)
        (by omega) (by simp),
      utf8Replace_next (by simp) (by simp; omega) (by omega) (by simp),
      utf8Replace_last (by simp) (by simp; omega) (by omega) rfl]
    have whole : 64 * (64 * (64 * (code / 262144 % 8 + 0xF0 - 0xF0) +
        (code / 4096 % 64 + 0x80 - 0x80)) + (code / 64 % 64 + 0x80 - 0x80)) +
        (code % 64 + 0x80 - 0x80) = code := by omega
    rw [whole, same]

theorem decodeReplace_encodeUtf8 (text : String) : decodeReplace (encodeUtf8 text) = text := by
  have every (characters : List Char) :
      utf8Replace none (characters.flatMap String.utf8EncodeChar) = characters := by
    induction characters with
    | nil => rfl
    | cons first rest ih => rw [List.flatMap_cons, utf8Replace_encodeChar, ih]
  rw [decodeReplace, encodeUtf8, every, String.ofList_toList]

end PythonText
