import CustomDomain.PythonText
import Mathlib.Data.List.Basic
import Mathlib.Data.List.TakeWhile

/-!
# Lines of the text exposition format

A sample is a line with a name, labels between braces and a value.  In the value of a label a
backslash, a double quote and a line feed are escaped, so a line never holds a line feed.
-/

namespace ExpositionFormat

structure SampleLine where
  name : String
  labels : List (String × String)
  value : String
  deriving DecidableEq

def escapeCharacter (character : Char) : List Char :=
  if character = '\\' then ['\\', '\\']
  else if character = '"' then ['\\', '"']
  else if character = '\n' then ['\\', 'n']
  else [character]

def printLabel (label : String × String) : List Char :=
  label.1.toList ++ '=' :: '"' :: (label.2.toList.flatMap escapeCharacter ++ ['"'])

def printLine (line : SampleLine) : List Char :=
  line.name.toList ++ '{' :: ([','].intercalate (line.labels.map printLabel) ++
    '}' :: ' ' :: line.value.toList)

/-- A text of sample lines and blank ones, each with its line feed. -/
def print (lines : List (Option SampleLine)) : List Char :=
  lines.flatMap fun line => line.elim [] printLine ++ ['\n']

def isLabelCharacter (character : Char) : Bool := character.isAlphanum || character == '_'

def isNameCharacter (character : Char) : Bool := isLabelCharacter character || character == ':'

/-- A text of such characters that does not begin with a digit. -/
def isName (test : Char → Bool) : List Char → Bool
  | [] => false
  | first :: rest => test first && !first.isDigit && rest.all test

/-- Not between two columns of a line. -/
def isPrinting (character : Char) : Bool := !character.isWhitespace

structure SampleLine.WellFormed (line : SampleLine) : Prop where
  name : isName isNameCharacter line.name.toList = true
  labels : ∀ label ∈ line.labels, isName isLabelCharacter label.1.toList = true
  distinct : (line.labels.map (·.1)).Nodup
  value : line.value.toList ≠ [] ∧ (line.value.toList.all isPrinting) = true

/-! ## Reading -/

/-- A label's value up to its closing quote, and what follows that. -/
def readQuoted : List Char → Option (List Char × List Char)
  | [] => none
  | character :: rest =>
      if character = '"' then some ([], rest)
      else if character = '\\' then
        match rest with
        | [] => none
        | escaped :: rest =>
            if escaped = 'n' then (readQuoted rest).map fun read => ('\n' :: read.1, read.2)
            else if escaped = '\\' ∨ escaped = '"' then
              (readQuoted rest).map fun read => (escaped :: read.1, read.2)
            else none
      else (readQuoted rest).map fun read => (character :: read.1, read.2)

/-- The labels up to the closing brace, at most as many as `fuel`. -/
def readLabels : Nat → List Char → Option (List (String × String) × List Char)
  | 0, _ => none
  | fuel + 1, text =>
      match text.dropWhile isLabelCharacter with
      | '=' :: '"' :: quoted =>
          match readQuoted quoted with
          | some (value, '}' :: rest) =>
              some ([(String.ofList (text.takeWhile isLabelCharacter), String.ofList value)], rest)
          | some (value, ',' :: rest) =>
              (readLabels fuel rest).map fun read =>
                ((String.ofList (text.takeWhile isLabelCharacter), String.ofList value) :: read.1,
                  read.2)
          | _ => none
      | _ => none

/-- The labels in braces, where there are any. -/
def readBraces : List Char → Option (List (String × String) × List Char)
  | '{' :: '}' :: rest => some ([], rest)
  | '{' :: labels => readLabels labels.length labels
  | rest => some ([], rest)

/-- One line: blank or a comment, or a sample. -/
def readLine (text : List Char) : Option (Option SampleLine) :=
  if text = [] ∨ text.head? = some '#' then some none
  else
    match readBraces (text.dropWhile isNameCharacter) with
    | some (labels, ' ' :: value) =>
        if value ≠ [] ∧ value.all isPrinting = true then
          some (some
            { name := String.ofList (text.takeWhile isNameCharacter)
              labels := labels
              value := String.ofList value })
        else none
    | _ => none

/-- The samples of a text, or `none` where a line is none of the format. -/
def read (text : List Char) : Option (List SampleLine) :=
  match text.splitOn '\n' |>.reverse with
  | [] :: lines => (lines.reverse.mapM readLine).map fun lines => lines.filterMap id
  | _ => none

/-! ## What was printed is read -/

theorem isName_all {test : Char → Bool} {text : List Char} (valid : isName test text = true) :
    ∀ character ∈ text, test character = true := by
  cases text with
  | nil => cases valid
  | cons first rest =>
      rw [isName, Bool.and_eq_true, Bool.and_eq_true] at valid
      intro character member
      rcases List.mem_cons.mp member with rfl | later
      · exact valid.1.1
      · exact List.all_eq_true.mp valid.2 character later

theorem readQuoted_escaped (text rest : List Char) :
    readQuoted (text.flatMap escapeCharacter ++ '"' :: rest) = some (text, rest) := by
  induction text with
  | nil => simp [readQuoted.eq_def]
  | cons character text ih =>
      rw [List.flatMap_cons, List.append_assoc]
      by_cases backslash : character = '\\'
      · subst backslash
        simp [escapeCharacter, readQuoted, ih]
      by_cases quote : character = '"'
      · subst quote
        simp [escapeCharacter, readQuoted, ih]
      by_cases lineFeed : character = '\n'
      · subst lineFeed
        simp [escapeCharacter, readQuoted, ih]
      · rw [escapeCharacter, if_neg backslash, if_neg quote, if_neg lineFeed, List.singleton_append,
          readQuoted.eq_def]
        simp only [if_neg quote, if_neg backslash, ih, Option.map_some]

section Labels

variable {label : String × String} (valid : isName isLabelCharacter label.1.toList = true)

include valid

theorem printLabel_dropWhile (rest : List Char) :
    (printLabel label ++ rest).dropWhile isLabelCharacter =
      '=' :: '"' :: (label.2.toList.flatMap escapeCharacter ++ '"' :: rest) := by
  rw [printLabel, List.append_assoc, List.dropWhile_append_of_pos (isName_all valid)]
  simp [isLabelCharacter]

theorem printLabel_takeWhile (rest : List Char) :
    String.ofList ((printLabel label ++ rest).takeWhile isLabelCharacter) = label.1 := by
  rw [printLabel, List.append_assoc, List.takeWhile_append_of_pos (isName_all valid)]
  simp [isLabelCharacter]

end Labels

theorem printLabels_cons (label other : String × String) (labels : List (String × String)) :
    [','].intercalate ((label :: other :: labels).map printLabel) =
      printLabel label ++ ',' :: [','].intercalate ((other :: labels).map printLabel) := by
  simp [List.intercalate]

theorem readLabels_print {labels : List (String × String)}
    (valid : ∀ label ∈ labels, isName isLabelCharacter label.1.toList = true) (nonempty : labels ≠ [])
    {fuel : Nat} (enough : labels.length ≤ fuel) (rest : List Char) :
    readLabels fuel ([','].intercalate (labels.map printLabel) ++ '}' :: rest) =
      some (labels, rest) := by
  induction labels generalizing fuel with
  | nil => exact absurd rfl nonempty
  | cons label labels ih =>
      obtain ⟨fuel, rfl⟩ : ∃ less, fuel = less + 1 :=
        Nat.exists_eq_add_one.mpr (lt_of_lt_of_le (by simp) enough)
      have first := valid label List.mem_cons_self
      cases labels with
      | nil =>
          have single : [','].intercalate ([label].map printLabel) = printLabel label := by
            simp [List.intercalate]
          rw [single, readLabels, printLabel_dropWhile first]
          simp only [readQuoted_escaped, printLabel_takeWhile first, String.ofList_toList]
      | cons other labels =>
          have later := ih (fun next member => valid next (List.mem_cons_of_mem _ member))
            (List.cons_ne_nil _ _) (Nat.le_of_succ_le_succ enough)
          rw [printLabels_cons, List.append_assoc, List.cons_append, readLabels,
            printLabel_dropWhile first]
          simp only [readQuoted_escaped, printLabel_takeWhile first, String.ofList_toList, later,
            Option.map_some]

theorem length_printLabels (labels : List (String × String)) :
    labels.length ≤ ([','].intercalate (labels.map printLabel)).length := by
  induction labels with
  | nil => exact Nat.zero_le _
  | cons label labels ih =>
      cases labels with
      | nil => simp [List.intercalate, printLabel]; omega
      | cons other labels =>
          rw [printLabels_cons, List.length_append]
          simp only [List.length_cons] at ih ⊢
          omega

theorem isName_head {test : Char → Bool} {text : List Char} (valid : isName test text = true) :
    ∃ first rest, text = first :: rest ∧ test first = true := by
  cases text with
  | nil => cases valid
  | cons first rest =>
      rw [isName, Bool.and_eq_true, Bool.and_eq_true] at valid
      exact ⟨first, rest, rfl, valid.1.1⟩

theorem readBraces_print {labels : List (String × String)}
    (valid : ∀ label ∈ labels, isName isLabelCharacter label.1.toList = true) (rest : List Char) :
    readBraces ('{' :: ([','].intercalate (labels.map printLabel) ++ '}' :: rest)) =
      some (labels, rest) := by
  cases labels with
  | nil => rfl
  | cons label labels =>
      have enough : (label :: labels).length ≤
          ([','].intercalate ((label :: labels).map printLabel) ++ '}' :: rest).length := by
        have least := length_printLabels (label :: labels)
        rw [List.length_append]
        omega
      have read := readLabels_print valid (List.cons_ne_nil _ _) enough rest
      -- A label begins with its name, so the first character is not a closing brace.
      obtain ⟨letter, name, text, fits⟩ := isName_head (valid label List.mem_cons_self)
      have opens : ∃ others, [','].intercalate ((label :: labels).map printLabel) ++ '}' :: rest =
          letter :: others := by
        cases labels with
        | nil => exact ⟨_, by rw [List.map_singleton, List.intercalate_singleton, printLabel, text]; rfl⟩
        | cons other labels => exact ⟨_, by rw [printLabels_cons, printLabel, text]; rfl⟩
      obtain ⟨others, opens⟩ := opens
      rw [opens] at read ⊢
      unfold readBraces
      split
      next same =>
        obtain rfl : letter = '}' := (List.cons.inj (List.cons.inj same).2).1
        exact absurd fits (by decide)
      next same =>
        rw [← (List.cons.inj same).2]
        exact read
      next _ notOpen => exact absurd rfl (notOpen (letter :: others))

section Lines

variable {line : SampleLine} (wellFormed : line.WellFormed)

include wellFormed

theorem printLine_dropWhile : (printLine line).dropWhile isNameCharacter =
    '{' :: ([','].intercalate (line.labels.map printLabel) ++ '}' :: ' ' :: line.value.toList) := by
  rw [printLine, List.dropWhile_append_of_pos (isName_all wellFormed.name)]
  simp [isNameCharacter, isLabelCharacter]

theorem printLine_takeWhile :
    String.ofList ((printLine line).takeWhile isNameCharacter) = line.name := by
  rw [printLine, List.takeWhile_append_of_pos (isName_all wellFormed.name)]
  simp [isNameCharacter, isLabelCharacter]

theorem readLine_print : readLine (printLine line) = some (some line) := by
  obtain ⟨first, rest, name, letter⟩ := isName_head wellFormed.name
  have sample : ¬ (printLine line = [] ∨ (printLine line).head? = some '#') := by
    rw [printLine, name, List.cons_append, List.head?_cons]
    rintro (empty | comment)
    · cases empty
    · rw [Option.some.inj comment] at letter
      exact absurd letter (by decide)
  rw [readLine, if_neg sample, printLine_dropWhile wellFormed, readBraces_print wellFormed.labels]
  simp only [if_pos wellFormed.value, printLine_takeWhile wellFormed, String.ofList_toList]

/-- A line holds no line feed. -/
theorem lineFeed_printLine : '\n' ∉ printLine line := by
  have quoted : ∀ text : List Char, '\n' ∉ text.flatMap escapeCharacter := by
    intro text member
    obtain ⟨character, -, inside⟩ := List.mem_flatMap.mp member
    unfold escapeCharacter at inside
    split_ifs at inside with backslash quote lineFeed
    · simp at inside
    · simp at inside
    · simp at inside
    · exact lineFeed (List.mem_singleton.mp inside).symm
  have labelled : ∀ labels : List (String × String),
      (∀ label ∈ labels, isName isLabelCharacter label.1.toList = true) →
      '\n' ∉ [','].intercalate (labels.map printLabel) := by
    intro labels valid
    induction labels with
    | nil => simp
    | cons label labels ih =>
        have first : '\n' ∉ printLabel label := by
          intro member
          rw [printLabel] at member
          simp only [List.mem_append, List.mem_cons, List.not_mem_nil, or_false] at member
          rcases member with name | equals | quote | value | quote
          · exact absurd (isName_all (valid label List.mem_cons_self) _ name) (by decide)
          · exact absurd equals (by decide)
          · exact absurd quote (by decide)
          · exact quoted _ value
          · exact absurd quote (by decide)
        cases labels with
        | nil =>
            rw [List.map_singleton, List.intercalate_singleton]
            exact first
        | cons other labels =>
            rw [printLabels_cons, List.mem_append, List.mem_cons]
            rintro (here | comma | later)
            · exact first here
            · exact absurd comma (by decide)
            · exact ih (fun next member => valid next (List.mem_cons_of_mem _ member)) later
  intro member
  rw [printLine, List.mem_append, List.mem_cons, List.mem_append, List.mem_cons, List.mem_cons]
    at member
  rcases member with name | open_ | labels | close | space | value
  · exact absurd (isName_all wellFormed.name _ name) (by decide)
  · exact absurd open_ (by decide)
  · exact labelled _ wellFormed.labels labels
  · exact absurd close (by decide)
  · exact absurd space (by decide)
  · exact absurd (List.all_eq_true.mp wellFormed.value.2 _ value) (by decide)

end Lines

/-- The samples of a printed text are read again. -/
theorem read_print {lines : List (Option SampleLine)}
    (wellFormed : ∀ line ∈ lines, ∀ sample ∈ line, sample.WellFormed) :
    read (print lines) = some (lines.filterMap id) := by
  have columns : (print lines).splitOn '\n' = lines.map (·.elim [] printLine) ++ [[]] := by
    induction lines with
    | nil => rfl
    | cons line lines ih =>
        have whole : '\n' ∉ line.elim [] printLine := by
          cases line with
          | none => exact List.not_mem_nil
          | some sample => exact lineFeed_printLine (wellFormed _ List.mem_cons_self sample rfl)
        have rest := ih fun next member => wellFormed next (List.mem_cons_of_mem _ member)
        rw [print, List.flatMap_cons, List.append_assoc, List.singleton_append,
          List.splitOn_append_cons_self_of_not_mem whole, List.map_cons, List.cons_append, ← rest]
        rfl
  have lineRead : ∀ line ∈ lines, readLine (line.elim [] printLine) = some line := by
    intro line member
    cases line with
    | none => rfl
    | some sample => exact readLine_print (wellFormed _ member sample rfl)
  have all : (lines.map (·.elim [] printLine)).mapM readLine = some lines := by
    clear columns wellFormed
    induction lines with
    | nil => rfl
    | cons line lines ih =>
        have rest := ih fun next member => lineRead next (List.mem_cons_of_mem _ member)
        rw [List.map_cons, List.mapM_cons, lineRead line List.mem_cons_self, rest]
        rfl
  unfold read
  rw [columns, List.reverse_append]
  simp only [List.reverse_cons, List.reverse_nil, List.nil_append, List.singleton_append,
    List.reverse_reverse, all, Option.map_some]

/-! ## Line feeds are escaped -/

theorem readQuoted_mem {text value rest : List Char} (found : readQuoted text = some (value, rest)) :
    rest ⊆ text ∧ ∀ character ∈ value, character ∈ text ∨ '\\' ∈ text := by
  induction text using readQuoted.induct generalizing value rest with
  | case1 => cases found
  | case2 text =>
      rw [readQuoted.eq_def] at found
      simp only [if_true] at found
      cases found
      exact ⟨List.subset_cons_self _ _, fun _ member => by cases member⟩
  | case3 quote =>
      rw [readQuoted.eq_def] at found
      simp only [if_neg quote, if_true] at found
      cases found
  | case4 text quote ih =>
      rw [readQuoted.eq_def] at found
      simp only [if_neg quote, if_true, Option.map_eq_some_iff] at found
      obtain ⟨⟨inner, after⟩, read, same⟩ := found
      cases same
      have later := (ih read).1
      exact ⟨fun _ member => List.mem_cons_of_mem _ (List.mem_cons_of_mem _ (later member)),
        fun _ _ => .inr List.mem_cons_self⟩
  | case5 escaped text plain escapes quote ih =>
      rw [readQuoted.eq_def] at found
      simp only [if_neg quote, if_true, if_neg plain, if_pos escapes, Option.map_eq_some_iff] at found
      obtain ⟨⟨inner, after⟩, read, same⟩ := found
      cases same
      have later := (ih read).1
      exact ⟨fun _ member => List.mem_cons_of_mem _ (List.mem_cons_of_mem _ (later member)),
        fun _ _ => .inr List.mem_cons_self⟩
  | case6 escaped text plain unknown quote =>
      rw [readQuoted.eq_def] at found
      simp only [if_neg quote, if_true, if_neg plain, if_neg unknown] at found
      cases found
  | case7 character text quote backslash ih =>
      rw [readQuoted.eq_def] at found
      simp only [if_neg quote, if_neg backslash, Option.map_eq_some_iff] at found
      obtain ⟨⟨inner, after⟩, read, same⟩ := found
      cases same
      obtain ⟨later, inside⟩ := ih read
      refine ⟨fun _ member => List.mem_cons_of_mem _ (later member), fun other member => ?_⟩
      rcases List.mem_cons.mp member with rfl | member
      · exact .inl List.mem_cons_self
      · exact (inside other member).imp (List.mem_cons_of_mem _) (List.mem_cons_of_mem _)

theorem readLabels_mem {fuel : Nat} {text rest : List Char} {labels : List (String × String)}
    (found : readLabels fuel text = some (labels, rest)) :
    ∀ label ∈ labels, ∀ character ∈ label.2.toList, character ∈ text ∨ '\\' ∈ text := by
  induction fuel generalizing text labels rest with
  | zero => cases found
  | succ fuel ih =>
      rw [readLabels] at found
      split at found
      next quoted columns =>
        have within : quoted ⊆ text := by
          intro character member
          have dropped : character ∈ text.dropWhile isLabelCharacter := by
            rw [columns]
            exact List.mem_cons_of_mem _ (List.mem_cons_of_mem _ member)
          exact (List.dropWhile_suffix _).subset dropped
        split at found
        next value after read =>
          cases found
          intro label member character inside
          rw [List.mem_singleton.mp member, String.toList_ofList] at inside
          exact ((readQuoted_mem read).2 character inside).imp (@within _) (@within _)
        next value after read =>
          rw [Option.map_eq_some_iff] at found
          obtain ⟨⟨more, last⟩, later, same⟩ := found
          cases same
          intro label member character inside
          rcases List.mem_cons.mp member with rfl | member
          · rw [String.toList_ofList] at inside
            exact ((readQuoted_mem read).2 character inside).imp (@within _) (@within _)
          · have beyond : after ⊆ text := fun _ among =>
              within ((readQuoted_mem read).1 (List.mem_cons_of_mem _ among))
            exact (ih later label member character inside).imp (@beyond _) (@beyond _)
        next => cases found
      next => cases found

/-- Every result of `mapM` comes from one of the items. -/
theorem exists_of_mapM {α β : Type} {items : List α} {results : List β} {step : α → Option β}
    (all : items.mapM step = some results) {result : β} (member : result ∈ results) :
    ∃ item ∈ items, step item = some result := by
  induction items generalizing results with
  | nil =>
      cases all
      cases member
  | cons item items ih =>
      rw [List.mapM_cons, Option.bind_eq_bind, Option.bind_eq_some_iff] at all
      obtain ⟨first, stepped, all⟩ := all
      rw [Option.bind_eq_bind, Option.bind_eq_some_iff] at all
      obtain ⟨rest, later, same⟩ := all
      cases same
      rcases List.mem_cons.mp member with rfl | member
      · exact ⟨item, List.mem_cons_self, stepped⟩
      · obtain ⟨other, inside, same⟩ := ih later member
        exact ⟨other, List.mem_cons_of_mem _ inside, same⟩

theorem readLine_mem {text : List Char} {sample : SampleLine}
    (found : readLine text = some (some sample)) :
    ∀ label ∈ sample.labels, ∀ character ∈ label.2.toList, character ∈ text ∨ '\\' ∈ text := by
  unfold readLine at found
  split at found
  next => cases found
  next =>
    split at found
    next labels value braces =>
      split at found
      next =>
        cases found
        have suffix := (List.dropWhile_suffix isNameCharacter (l := text)).subset
        generalize text.dropWhile isNameCharacter = columns at braces suffix
        unfold readBraces at braces
        split at braces
        next =>
          cases braces
          exact fun _ member => by cases member
        next after _ =>
          have within : after ⊆ text := fun _ member => suffix (List.mem_cons_of_mem _ member)
          intro label member character inside
          exact (readLabels_mem braces label member character inside).imp (@within _) (@within _)
        next =>
          cases braces
          exact fun _ member => by cases member
      next => cases found
    next => cases found

/-- A line feed in the value of a label was escaped. -/
theorem escaped_of_lineFeed {text : List Char} {samples : List SampleLine}
    (found : read text = some samples) {sample : SampleLine} (member : sample ∈ samples)
    {label : String × String} (inside : label ∈ sample.labels) (lineFeed : '\n' ∈ label.2.toList) :
    '\\' ∈ text := by
  unfold read at found
  split at found
  next lines columns =>
    rw [Option.map_eq_some_iff] at found
    obtain ⟨read, all, rfl⟩ := found
    obtain ⟨line, among, same⟩ := List.mem_filterMap.mp member
    obtain rfl : line = some sample := same
    obtain ⟨piece, listed, pieceRead⟩ := exists_of_mapM all among
    have split : piece ∈ text.splitOn '\n' := by
      rw [← List.mem_reverse, columns]
      exact List.mem_cons_of_mem _ (List.mem_reverse.mp listed)
    have within : piece ⊆ text := by
      intro character inside
      have whole : ['\n'].intercalate (text.splitOn '\n') = text := List.intercalate_splitOn '\n'
      rw [← whole]
      exact PythonText.mem_intercalate split inside
    rcases readLine_mem pieceRead label inside '\n' lineFeed with here | backslash
    · exact absurd here (PythonText.not_mem_of_mem_splitOn split)
    · exact within backslash
  next => cases found

end ExpositionFormat
