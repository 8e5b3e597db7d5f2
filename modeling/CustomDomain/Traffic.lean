import CustomDomain.ExpositionFormat
import CustomDomain.IpNetworks
import CustomDomain.PythonJson
import Mathlib.Data.List.Forall2
import Mathlib.Data.List.Sort

/-!
# Traffic totals

`app/edge/traffic.py`: the totals of each hostname out of Caddy's metrics, and the text the gateway
writes for them.  The text parser is a parameter, with what the exposition format says of it.
-/

namespace CustomDomain.Traffic

open PythonText PythonJson ExpositionFormat

/-- `REQUESTS`. -/
def requestsTotal : String := "caddy_http_requests_total"

/-- `RESPONSE_BYTES`. -/
def responseBytes : String := "caddy_http_response_size_bytes_sum"

/-- `SERVER_NAME`. -/
def serverName : String := "edge"

structure Sample where
  name : String
  labels : List (String × String)
  value : PyFloat
  deriving DecidableEq

/-- `int` of a float, or `none` where it raises. -/
def int? : PyFloat → Option Int
  | .finite value => some (value.num.tdiv value.den)
  | _ => none

/-- `[a-z0-9]`. -/
def isHostEnd (character : Char) : Bool :=
  ('a' ≤ character && character ≤ 'z') || ('0' ≤ character && character ≤ '9')

/-- `[a-z0-9.-]`. -/
def isHostCharacter (character : Char) : Bool :=
  isHostEnd character || character == '.' || character == '-'

/-- `[a-z0-9]([a-z0-9.-]{0,251}[a-z0-9])?`. -/
def hostShape : List Char → Bool
  | [] => false
  | first :: rest =>
      isHostEnd first && (rest.isEmpty ||
        (decide (rest.length ≤ 252) && rest.dropLast.all isHostCharacter &&
          rest.getLast?.any isHostEnd))

/-- `_HOST.match`; the `$` of the pattern matches in front of a final line feed, too. -/
def matchesHost (host : List Char) : Bool :=
  hostShape host || (host.getLast? == some '\n' && hostShape host.dropLast)

/-- The totals in the order of the dictionary: requests and response bytes. -/
abbrev Totals := List (String × Int × Int)

/-- `entry[0 if sample.name == REQUESTS else 1] += amount`. -/
def credit (name : String) (amount : Int) (entry : Int × Int) : Int × Int :=
  if name = requestsTotal then (entry.1 + amount, entry.2) else (entry.1, entry.2 + amount)

/-- `setdefault(host, [0, 0])`, and the amount added. -/
def count (host name : String) (amount : Int) : Totals → Totals
  | [] => [(host, credit name amount (0, 0))]
  | (other, entry) :: rest =>
      if other = host then (other, credit name amount entry) :: rest
      else (other, entry) :: count host name amount rest

/-- The host a sample is counted for, where it is. -/
def edgeHost (lower : String → String) (sample : Sample) : Option String :=
  if sample.name ≠ requestsTotal ∧ sample.name ≠ responseBytes then none
  else if sample.labels.lookup "server" ≠ some serverName then none
  else
    let host := lower ((sample.labels.lookup "host").getD "")
    if matchesHost host.toList then some host else none

/-- One round of the loop of `parse_totals`. -/
def addSample (lower : String → String) (totals : Totals) (sample : Sample) : Option Totals :=
  match edgeHost lower sample with
  | none => some totals
  | some host => (int? sample.value).map fun amount => count host sample.name amount totals

/-- `parse_totals`, or `none` where it raises. -/
def parseTotals (parse : String → Option (List Sample)) (lower : String → String) (text : String) :
    Option Totals := do
  let samples ← parse text
  samples.foldlM (addSample lower) []

/-- `sorted(totals)`, with `totals[host]`. -/
def sortedTotals (totals : Totals) : Totals :=
  ((totals.map (·.1)).mergeSort fun first second => decide (first ≤ second)).map fun host =>
    (host, (totals.lookup host).getD (0, 0))

/-- One line for a host. -/
def renderLine (name host : String) (total : Int) : String :=
  name ++ "\x7bhost=\"" ++ host ++ "\",server=\"" ++ serverName ++ "\"\x7d " ++ toString total

/-- `render_totals`. -/
def renderTotals (totals : Totals) : String :=
  "\n".intercalate ((sortedTotals totals).flatMap fun entry =>
    [renderLine requestsTotal entry.1 entry.2.1, renderLine responseBytes entry.1 entry.2.2]) ++ "\n"

/-- `get_metrics` of the gateway: what Caddy answers, where it does, and the response, or `none` where
`parse_totals` raises. -/
def getMetrics (parse : String → Option (List Sample)) (lower : String → String) :
    Option (Nat × String) → Option (Nat × String)
  | some (status, text) =>
      if status ≠ 200 then some (502, unavailable)
      else (parseTotals parse lower text).map fun totals => (200, renderTotals totals)
  | none => some (502, unavailable)
where
  unavailable := "\x7b\"error\": \"Caddy metrics unavailable\"\x7d"

/-! ## The parser and the case table -/

/-- The sample a line stands for. -/
def toSample (float : String → Option PyFloat) (line : SampleLine) : Option Sample :=
  (float line.value).map fun value => ⟨line.name, line.labels, value⟩

/-- The integers a double holds: those below 2¹⁰²⁴ with zeros after the first 53 bits. -/
def IsDouble (number : Int) : Prop :=
  number.natAbs < 2 ^ 1024 ∧ 2 ^ (number.natAbs.log2 - 52) ∣ number.natAbs

instance : DecidablePred IsDouble :=
  fun number => inferInstanceAs (Decidable (number.natAbs < 2 ^ 1024 ∧ _))

/-- Every integer below 2⁵³ is one. -/
theorem isDouble_of_lt {number : Int} (small : number.natAbs < 2 ^ 53) : IsDouble number := by
  constructor
  · apply small.trans_le
    apply Nat.pow_le_pow_right
    · omega
    · omega
  · have bits : number.natAbs.log2 - 52 = 0 := by
      by_cases zero : number.natAbs = 0
      · rw [zero, Nat.log2_zero]
      · have bits := (Nat.log2_lt zero).mpr small
        omega
    rw [bits, pow_zero]
    exact Nat.one_dvd _

/-- What the format says of the parser: it reads well-formed lines, a line feed in a label was
escaped, and the integers that are read as they are written are those a double holds. -/
structure TextParser (parse : String → Option (List Sample)) (float : String → Option PyFloat) :
    Prop where
  reads : ∀ lines : List (Option SampleLine),
    (∀ line ∈ lines, ∀ sample ∈ line, sample.WellFormed) →
      parse (String.ofList (print lines)) = (lines.filterMap id).mapM (toSample float)
  lineFeed : ∀ text samples, parse text = some samples → ∀ sample ∈ samples,
    ∀ label ∈ sample.labels, '\n' ∈ label.2.toList → '\\' ∈ text.toList
  whole : ∀ number : Int, (float (toString number)).bind int? = some number ↔ IsDouble number

/-- What `str.lower` does to characters without case and to lower-case letters. -/
structure Lowercase (lower : String → String) : Prop where
  fixed : ∀ text, (∀ character ∈ text.toList, isHostCharacter character = true) → lower text = text
  lineFeed : ∀ text, '\n' ∈ (lower text).toList → '\n' ∈ text.toList

/-- The sum over the samples of a name that are counted for a host. -/
def sumOf (lower : String → String) (samples : List Sample) (name host : String) : Int :=
  ((samples.filter fun sample => decide (edgeHost lower sample = some host ∧ sample.name = name)).map
    fun sample => (int? sample.value).getD 0).sum

/-! ## What is counted -/

section Counts

variable {lower : String → String}

theorem hostShape_characters {host : List Char} (shape : hostShape host = true) :
    ∀ character ∈ host, isHostCharacter character = true := by
  have ends : ∀ character, isHostEnd character = true → isHostCharacter character = true :=
    fun character isEnd => by rw [isHostCharacter, isEnd, Bool.true_or, Bool.true_or]
  cases host with
  | nil => cases shape
  | cons first rest =>
      rw [hostShape, Bool.and_eq_true] at shape
      obtain ⟨isEnd, rest_⟩ := shape
      intro character member
      rcases List.mem_cons.mp member with rfl | later
      · exact ends _ isEnd
      · cases last : rest.getLast? with
        | none =>
            rw [List.getLast?_eq_none_iff.mp last] at later
            cases later
        | some final =>
            have split := List.dropLast_append_getLast? final last
            have nonempty : rest.isEmpty = false := by
              rw [List.isEmpty_eq_false_iff]
              rintro rfl
              cases last
            rw [nonempty, Bool.false_or, Bool.and_eq_true, Bool.and_eq_true, last] at rest_
            rw [← split, List.mem_append, List.mem_singleton] at later
            rcases later with inner | rfl
            · exact List.all_eq_true.mp rest_.1.2 character inner
            · exact ends _ rest_.2

/-- A host that is accepted has the characters of the pattern, but for a line feed at its end. -/
theorem matchesHost_characters {host : List Char} (accepted : matchesHost host = true) :
    ∀ character ∈ host, isHostCharacter character = true ∨ character = '\n' := by
  rw [matchesHost, Bool.or_eq_true, Bool.and_eq_true, beq_iff_eq] at accepted
  intro character member
  rcases accepted with shape | ⟨last, shape⟩
  · exact .inl (hostShape_characters shape character member)
  · rw [← List.dropLast_append_getLast? '\n' last, List.mem_append, List.mem_singleton] at member
    exact member.imp_left (hostShape_characters shape character)

theorem hostShape_of_last {host : List Char} (accepted : matchesHost host = true)
    (last : host.getLast? ≠ some '\n') : hostShape host = true := by
  rw [matchesHost, Bool.or_eq_true, Bool.and_eq_true, beq_iff_eq] at accepted
  exact accepted.resolve_right fun both => last both.1

theorem edgeHost_matches {sample : Sample} {host : String}
    (counted : edgeHost lower sample = some host) : matchesHost host.toList = true := by
  unfold edgeHost at counted
  dsimp only at counted
  split_ifs at counted with _ _ accepted
  rw [← Option.some.inj counted]
  exact accepted

theorem edgeHost_name {sample : Sample} {host : String}
    (counted : edgeHost lower sample = some host) :
    sample.name = requestsTotal ∨ sample.name = responseBytes := by
  unfold edgeHost at counted
  split_ifs at counted with other
  by_contra neither
  exact other (not_or.mp neither)

theorem count_keys (host name : String) (amount : Int) (totals : Totals) :
    (count host name amount totals).map (·.1) =
      if host ∈ totals.map (·.1) then totals.map (·.1) else totals.map (·.1) ++ [host] := by
  induction totals with
  | nil => rfl
  | cons entry totals ih =>
      obtain ⟨other, entry⟩ := entry
      rw [count]
      by_cases here : other = host
      · simp [here]
      · have others : (host ∈ (other, entry).1 :: totals.map (·.1)) ↔ host ∈ totals.map (·.1) := by
          rw [List.mem_cons, or_iff_right (Ne.symm here)]
        rw [if_neg here, List.map_cons, ih, List.map_cons]
        by_cases known : host ∈ totals.map (·.1)
        · rw [if_pos known, if_pos (others.mpr known)]
        · rw [if_neg known, if_neg (mt others.mp known)]
          rfl

theorem count_entries {host name : String} {amount : Int} {totals : Totals}
    {entry : String × Int × Int} (nodup : (totals.map (·.1)).Nodup)
    (member : entry ∈ count host name amount totals) :
    (entry.1 ≠ host ∧ entry ∈ totals) ∨
      (entry.1 = host ∧ ((∃ before, (host, before) ∈ totals ∧ entry.2 = credit name amount before) ∨
        (host ∉ totals.map (·.1) ∧ entry.2 = credit name amount (0, 0)))) := by
  induction totals with
  | nil =>
      rw [count, List.mem_singleton] at member
      subst member
      exact .inr ⟨rfl, .inr ⟨List.not_mem_nil, rfl⟩⟩
  | cons first totals ih =>
      obtain ⟨other, before⟩ := first
      rw [List.map_cons, List.nodup_cons] at nodup
      rw [count] at member
      split at member
      next here =>
        rcases List.mem_cons.mp member with rfl | later
        · exact .inr ⟨here, .inl ⟨before, by rw [← here]; exact List.mem_cons_self, rfl⟩⟩
        · refine .inl ⟨fun same => nodup.1 ?_, List.mem_cons_of_mem _ later⟩
          rw [here, ← same]
          exact List.mem_map.mpr ⟨entry, later, rfl⟩
      next elsewhere =>
        rcases List.mem_cons.mp member with rfl | later
        · exact .inl ⟨elsewhere, List.mem_cons_self⟩
        · rcases ih nodup.2 later with ⟨differs, old⟩ | ⟨same, ⟨entry', old, credited⟩ | ⟨new, credited⟩⟩
          · exact .inl ⟨differs, List.mem_cons_of_mem _ old⟩
          · exact .inr ⟨same, .inl ⟨entry', List.mem_cons_of_mem _ old, credited⟩⟩
          · refine .inr ⟨same, .inr ⟨?_, credited⟩⟩
            rw [List.map_cons, List.mem_cons, not_or]
            exact ⟨fun also => elsewhere also.symm, new⟩

/-- The totals are the sums over the samples. -/
structure Counts (lower : String → String) (samples : List Sample) (totals : Totals) : Prop where
  nodup : (totals.map (·.1)).Nodup
  hosts : ∀ host, host ∈ totals.map (·.1) ↔ ∃ sample ∈ samples, edgeHost lower sample = some host
  sums : ∀ entry ∈ totals, entry.2 =
    (sumOf lower samples requestsTotal entry.1, sumOf lower samples responseBytes entry.1)

theorem sumOf_append (samples : List Sample) (sample : Sample) (name host : String) :
    sumOf lower (samples ++ [sample]) name host = sumOf lower samples name host +
      if edgeHost lower sample = some host ∧ sample.name = name then (int? sample.value).getD 0
      else 0 := by
  rw [sumOf, List.filter_append, List.map_append, List.sum_append, sumOf]
  congr 1
  split
  next counted => rw [List.filter_cons_of_pos (by simpa using counted)]; simp
  next skipped => rw [List.filter_cons_of_neg (by simpa using skipped)]; simp

theorem sumOf_uncounted {samples : List Sample} {host : String}
    (uncounted : ∀ sample ∈ samples, edgeHost lower sample ≠ some host) (name : String) :
    sumOf lower samples name host = 0 := by
  have none : (samples.filter fun sample =>
      decide (edgeHost lower sample = some host ∧ sample.name = name)) = [] := by
    rw [List.filter_eq_nil_iff]
    intro sample member
    simp [uncounted sample member]
  rw [sumOf, none]
  rfl

theorem credit_sums {samples : List Sample} {sample : Sample} {host : String} {amount : Int}
    (counted : edgeHost lower sample = some host) (whole : int? sample.value = some amount)
    {entry : Int × Int} (before : entry =
      (sumOf lower samples requestsTotal host, sumOf lower samples responseBytes host)) :
    credit sample.name amount entry = (sumOf lower (samples ++ [sample]) requestsTotal host,
      sumOf lower (samples ++ [sample]) responseBytes host) := by
  have different : responseBytes ≠ requestsTotal := by decide
  rw [sumOf_append, sumOf_append, before, whole, credit]
  rcases edgeHost_name counted with name | name
  · simp [counted, name, different.symm]
  · simp [counted, name, different]

/-- One round keeps the sums. -/
theorem Counts.step {samples : List Sample} {totals after : Totals} {sample : Sample}
    (counts : Counts lower samples totals) (added : addSample lower totals sample = some after) :
    Counts lower (samples ++ [sample]) after := by
  obtain ⟨nodup, hosts, sums⟩ := counts
  have listed : ∀ host, (∃ other ∈ samples ++ [sample], edgeHost lower other = some host) ↔
      (∃ other ∈ samples, edgeHost lower other = some host) ∨ edgeHost lower sample = some host := by
    intro host
    simp only [List.mem_append, List.mem_singleton, or_and_right, exists_or, exists_eq_left]
  have kept : ∀ host, edgeHost lower sample ≠ some host → ∀ name,
      sumOf lower (samples ++ [sample]) name host = sumOf lower samples name host := by
    intro host uncounted name
    rw [sumOf_append, if_neg fun both => uncounted both.1, add_zero]
  unfold addSample at added
  split at added
  next uncounted =>
    cases added
    constructor
    case nodup => exact nodup
    case hosts =>
      intro host
      rw [listed, uncounted, or_iff_left (by simp)]
      exact hosts host
    case sums =>
      intro entry member
      rw [kept _ (by simp [uncounted]), kept _ (by simp [uncounted])]
      exact sums entry member
  next host counted =>
    rw [Option.map_eq_some_iff] at added
    obtain ⟨amount, whole, rfl⟩ := added
    have keys := count_keys host sample.name amount totals
    constructor
    case nodup =>
      rw [keys]
      split
      next => exact nodup
      next new =>
        rw [← List.concat_eq_append]
        exact nodup.concat new
    case hosts =>
      intro other
      have known : other ∈ (count host sample.name amount totals).map (·.1) ↔
          other ∈ totals.map (·.1) ∨ other = host := by
        rw [keys]
        split
        next present =>
          refine ⟨.inl, fun either => either.elim id ?_⟩
          rintro rfl
          exact present
        next => rw [List.mem_append, List.mem_singleton]
      rw [known, listed, hosts, counted, Option.some.injEq, eq_comm (a := other)]
    case sums =>
      intro entry member
      rcases count_entries nodup member with ⟨differs, old⟩ | ⟨same, ⟨before, old, credited⟩ | ⟨new, credited⟩⟩
      · have uncounted : edgeHost lower sample ≠ some entry.1 := by
          rw [counted]
          exact fun also => differs (Option.some.inj also).symm
        rw [kept _ uncounted, kept _ uncounted]
        exact sums entry old
      · rw [credited, same]
        exact credit_sums counted whole (sums (host, before) old)
      · have never : ∀ other ∈ samples, edgeHost lower other ≠ some host :=
          fun other present also => new ((hosts host).mpr ⟨other, present, also⟩)
        rw [credited, same]
        apply credit_sums counted whole
        rw [sumOf_uncounted never, sumOf_uncounted never]

/-- The loop. -/
theorem Counts.run {samples more : List Sample} {totals after : Totals}
    (counts : Counts lower samples totals)
    (folded : more.foldlM (addSample lower) totals = some after) :
    Counts lower (samples ++ more) after := by
  induction more generalizing samples totals with
  | nil =>
      cases folded
      rw [List.append_nil]
      exact counts
  | cons sample more ih =>
      rw [List.foldlM_cons, Option.bind_eq_bind, Option.bind_eq_some_iff] at folded
      obtain ⟨middle, added, rest⟩ := folded
      have whole := ih (counts.step added) rest
      rwa [List.append_assoc, List.singleton_append] at whole

theorem Counts.of_parse {parse : String → Option (List Sample)} {text : String}
    {samples : List Sample} {totals : Totals} (parsed : parse text = some samples)
    (accepted : parseTotals parse lower text = some totals) : Counts lower samples totals := by
  have folded : samples.foldlM (addSample lower) [] = some totals := by
    rw [parseTotals, parsed] at accepted
    exact accepted
  have empty : Counts lower [] [] := by
    constructor
    case nodup => exact List.nodup_nil
    case hosts => simp
    case sums => simp
  exact empty.run folded

end Counts

/-! ## The rendered text -/

/-- What `str` writes for an integer. -/
theorem toString_characters (number : Int) :
    ∀ character ∈ (toString number).toList, character.isDigit = true ∨ character = '-' := by
  intro character member
  cases number with
  | ofNat value => exact .inl (PythonIp.toString_digits value character member)
  | negSucc value =>
      have text : (toString (Int.negSucc value)).toList = '-' :: (toString (value + 1)).toList := by
        show ("-" ++ toString (value + 1)).toList = _
        simp
      rw [text] at member
      rcases List.mem_cons.mp member with minus | digit
      · exact .inr minus
      · exact .inl (PythonIp.toString_digits _ character digit)

theorem toString_ne_nil (number : Int) : (toString number).toList ≠ [] := by
  cases number with
  | ofNat value =>
      show (toString value).toList ≠ []
      rw [Nat.toString_eq_ofList_toDigits, String.toList_ofList]
      exact Nat.toDigits_ne_nil
  | negSucc value =>
      show ("-" ++ toString (value + 1)).toList ≠ []
      simp

theorem isPrinting_of_digit {character : Char}
    (digit : character.isDigit = true ∨ character = '-') : isPrinting character = true := by
  rcases digit with digit | rfl
  · have range : 48 ≤ character.toNat ∧ character.toNat ≤ 57 := by
      rw [Char.isDigit, Bool.and_eq_true, decide_eq_true_eq, decide_eq_true_eq] at digit
      exact digit
    rw [isPrinting, Bool.not_eq_true', Char.isWhitespace]
    simp only [Bool.or_eq_false_iff, decide_eq_false_iff_not]
    refine ⟨⟨⟨?_, ?_⟩, ?_⟩, ?_⟩ <;>
      · rintro rfl
        exact absurd range.1 (by decide)
  · decide

/-- The two lines of a host. -/
def linesOf (entry : String × Int × Int) : List SampleLine :=
  [⟨requestsTotal, [("host", entry.1), ("server", serverName)], toString entry.2.1⟩,
    ⟨responseBytes, [("host", entry.1), ("server", serverName)], toString entry.2.2⟩]

theorem linesOf_wellFormed (entry : String × Int × Int) :
    ∀ line ∈ linesOf entry, line.WellFormed := by
  have wellFormed : ∀ (name : String) (number : Int), isName isNameCharacter name.toList = true →
      (⟨name, [("host", entry.1), ("server", serverName)], toString number⟩ : SampleLine).WellFormed := by
    intro name number named
    constructor
    case name => exact named
    case labels =>
      intro label member
      simp only [List.mem_cons, List.not_mem_nil, or_false] at member
      rcases member with rfl | rfl
      · show isName ExpositionFormat.isLabelCharacter "host".toList = true
        decide
      · decide
    case distinct =>
      show ["host", "server"].Nodup
      decide
    case value =>
      refine ⟨toString_ne_nil number, List.all_eq_true.mpr fun character member => ?_⟩
      exact isPrinting_of_digit (toString_characters number character member)
  intro line member
  simp only [linesOf, List.mem_cons, List.not_mem_nil, or_false] at member
  rcases member with rfl | rfl
  · exact wellFormed _ _ (by decide)
  · exact wellFormed _ _ (by decide)

/-- Nothing is escaped in a host of the pattern's characters. -/
theorem escape_host {host : List Char}
    (clean : ∀ character ∈ host, isHostCharacter character = true) :
    host.flatMap escapeCharacter = host := by
  induction host with
  | nil => rfl
  | cons character host ih =>
      have first := clean character List.mem_cons_self
      have plain : escapeCharacter character = [character] := by
        unfold escapeCharacter
        split_ifs with backslash quote lineFeed
        · rw [backslash] at first
          exact absurd first (by decide)
        · rw [quote] at first
          exact absurd first (by decide)
        · rw [lineFeed] at first
          exact absurd first (by decide)
        · rfl
      rw [List.flatMap_cons, plain, ih fun other member => clean other (List.mem_cons_of_mem _ member)]
      rfl

theorem renderLine_toList (name host : String) (total : Int) : (renderLine name host total).toList =
    name.toList ++ '{' :: ("host=\"".toList ++ host.toList ++ "\",server=\"edge\"".toList ++
      '}' :: ' ' :: (toString total).toList) := by
  simp [renderLine, serverName]

theorem renderLine_print {host : String}
    (clean : ∀ character ∈ host.toList, isHostCharacter character = true) (name : String) (total : Int) :
    (renderLine name host total).toList =
      printLine ⟨name, [("host", host), ("server", serverName)], toString total⟩ := by
  have labels : [','].intercalate ([("host", host), ("server", serverName)].map printLabel) =
      "host=\"".toList ++ host.toList ++ "\",server=\"edge\"".toList := by
    rw [printLabels_cons, List.map_singleton, List.intercalate_singleton, printLabel, printLabel,
      escape_host clean]
    simp [serverName, escapeCharacter]
  rw [renderLine_toList, printLine, labels]

/-- The lines are joined and end with a line feed. -/
theorem intercalate_lines {first : List Char} {rest : List (List Char)} :
    ['\n'].intercalate (first :: rest) ++ ['\n'] =
      (first :: rest).flatMap fun line => line ++ ['\n'] := by
  induction rest generalizing first with
  | nil => simp [List.intercalate_singleton]
  | cons second rest ih =>
      rw [List.intercalate_cons_cons, List.append_assoc, ih, List.flatMap_cons (x := first),
        List.append_assoc]

/-- Rendered hosts of the pattern's characters make a text of well-formed lines. -/
theorem renderTotals_print {totals : Totals} (clean : ∀ entry ∈ sortedTotals totals,
    ∀ character ∈ entry.1.toList, isHostCharacter character = true) :
    renderTotals totals = String.ofList (print
      (if sortedTotals totals = [] then [none]
        else ((sortedTotals totals).flatMap linesOf).map some)) := by
  apply String.toList_injective
  rw [renderTotals, String.toList_append, String.toList_intercalate, String.toList_ofList]
  generalize sortedTotals totals = entries at clean
  cases entries with
  | nil => rfl
  | cons entry entries =>
      rw [if_neg (List.cons_ne_nil _ _)]
      have lines : ((entry :: entries).flatMap fun entry =>
          [renderLine requestsTotal entry.1 entry.2.1,
            renderLine responseBytes entry.1 entry.2.2]).map String.toList =
          ((entry :: entries).flatMap linesOf).map printLine := by
        rw [List.map_flatMap, List.map_flatMap]
        refine List.flatMap_congr fun entry member => ?_
        simp only [List.map_cons, List.map_nil, linesOf, renderLine_print (clean entry member)]
      rw [lines, print, List.flatMap_map]
      have starts : ∃ first rest, ((entry :: entries).flatMap linesOf).map printLine = first :: rest :=
        ⟨_, _, rfl⟩
      obtain ⟨first, rest, starts⟩ := starts
      have joined : ['\n'].intercalate (((entry :: entries).flatMap linesOf).map printLine) ++ ['\n'] =
          (((entry :: entries).flatMap linesOf).map printLine).flatMap fun line => line ++ ['\n'] := by
        rw [starts]
        exact intercalate_lines
      rw [String.toList_ofList]
      exact joined.trans (List.flatMap_map ..)

/-- The rendered text has no backslash. -/
theorem backslash_renderTotals {totals : Totals}
    (plain : ∀ entry ∈ sortedTotals totals, '\\' ∉ entry.1.toList) :
    '\\' ∉ (renderTotals totals).toList := by
  have line : ∀ (name host : String) (total : Int), '\\' ∉ name.toList → '\\' ∉ host.toList →
      '\\' ∉ (renderLine name host total).toList := by
    intro name host total named hosted member
    rw [renderLine_toList] at member
    simp only [List.mem_append, List.mem_cons] at member
    rcases member with member | member | ((member | member) | member) | member | member | member
    · exact named member
    · exact absurd member (by decide)
    · exact absurd member (by decide)
    · exact hosted member
    · exact absurd member (by decide)
    · exact absurd member (by decide)
    · exact absurd member (by decide)
    · rcases toString_characters total _ member with digit | minus
      · exact absurd digit (by decide)
      · exact absurd minus (by decide)
  intro member
  rw [renderTotals, String.toList_append, String.toList_intercalate, List.mem_append] at member
  rcases member with lines | last
  · rcases mem_of_mem_intercalate lines with separator | ⟨piece, listed, inside⟩
    · exact absurd separator (by decide)
    · obtain ⟨text, among, rfl⟩ := List.mem_map.mp listed
      obtain ⟨entry, stored, choice⟩ := List.mem_flatMap.mp among
      simp only [List.mem_cons, List.not_mem_nil, or_false] at choice
      rcases choice with rfl | rfl
      · exact line _ _ _ (by decide) (plain entry stored) inside
      · exact line _ _ _ (by decide) (plain entry stored) inside
  · exact absurd last (by decide)

/-! ## Reading the rendered text -/

theorem sortedTotals_perm {totals : Totals} (nodup : (totals.map (·.1)).Nodup) :
    (sortedTotals totals).Perm totals := by
  have looked : ∀ entry ∈ totals, totals.lookup entry.1 = some entry.2 := by
    intro entry member
    induction totals with
    | nil => cases member
    | cons first totals ih =>
        rw [List.map_cons, List.nodup_cons] at nodup
        rcases List.mem_cons.mp member with rfl | later
        · exact List.lookup_cons_self
        · have differs : (entry.1 == first.1) = false := by
            rw [beq_eq_false_iff_ne]
            intro same
            exact nodup.1 (List.mem_map.mpr ⟨entry, later, same⟩)
          rw [List.lookup_cons, differs]
          exact ih nodup.2 later
  have whole : (totals.map (·.1)).map (fun host => (host, (totals.lookup host).getD (0, 0))) =
      totals := by
    rw [List.map_map]
    refine (List.map_congr_left fun entry member => ?_).trans (List.map_id totals)
    rw [Function.comp_apply, looked entry member]
    rfl
  have sorted := ((List.mergeSort_perm (totals.map (·.1)) fun first second =>
    decide (first ≤ second)).map fun host => (host, (totals.lookup host).getD (0, 0)))
  rwa [whole] at sorted

theorem count_new {host : String} {totals : Totals} (new : host ∉ totals.map (·.1)) (name : String)
    (amount : Int) :
    count host name amount totals = totals ++ [(host, credit name amount (0, 0))] := by
  induction totals with
  | nil => rfl
  | cons entry totals ih =>
      rw [List.map_cons, List.mem_cons, not_or] at new
      rw [count, if_neg fun same => new.1 same.symm, ih new.2]
      rfl

theorem count_last {host : String} {totals : Totals} (new : host ∉ totals.map (·.1)) (name : String)
    (amount : Int) (entry : Int × Int) :
    count host name amount (totals ++ [(host, entry)]) =
      totals ++ [(host, credit name amount entry)] := by
  induction totals with
  | nil => simp [count]
  | cons first totals ih =>
      rw [List.map_cons, List.mem_cons, not_or] at new
      rw [List.cons_append, count, if_neg fun same => new.1 same.symm, ih new.2]
      rfl

section Reread

variable {float : String → Option PyFloat} {lower : String → String} (lowercase : Lowercase lower)

/-- What becomes of a total that is written and read. -/
def reread (float : String → Option PyFloat) (total : Int) : Option Int :=
  (float (toString total)).bind int?

/-- Every total is read again for itself. -/
theorem mapM_reread {entries : Totals} (back : ∀ entry ∈ entries,
    reread float entry.2.1 = some entry.2.1 ∧ reread float entry.2.2 = some entry.2.2) :
    (entries.mapM fun entry => (reread float entry.2.1).bind fun requests =>
      (reread float entry.2.2).map fun sent => (entry.1, requests, sent)) = some entries := by
  induction entries with
  | nil => rfl
  | cons entry entries ih =>
      obtain ⟨requests, sent⟩ := back entry List.mem_cons_self
      rw [List.mapM_cons, requests, sent, ih fun other member => back other (List.mem_cons_of_mem _ member)]
      rfl

include lowercase

theorem edgeHost_written {host name : String}
    (clean : ∀ character ∈ host.toList, isHostCharacter character = true)
    (accepted : matchesHost host.toList = true)
    (known : name = requestsTotal ∨ name = responseBytes) (value : PyFloat) :
    edgeHost lower ⟨name, [("host", host), ("server", serverName)], value⟩ = some host := by
  have label : ([("host", host), ("server", serverName)] : List (String × String)).lookup "server" =
      some serverName := rfl
  have own : ([("host", host), ("server", serverName)] : List (String × String)).lookup "host" =
      some host := rfl
  unfold edgeHost
  rw [if_neg (by rcases known with rfl | rfl <;> simp), if_neg (by simp [label])]
  simp only [own, Option.getD_some, lowercase.fixed host clean, if_pos accepted]

/-- Reading the lines of hosts that are not counted yet gives their totals, each read again. -/
theorem reread_lines {entries : Totals}
    (clean : ∀ entry ∈ entries, (∀ character ∈ entry.1.toList, isHostCharacter character = true) ∧
      matchesHost entry.1.toList = true) (earlier : Totals)
    (distinct : ((earlier ++ entries).map (·.1)).Nodup) :
    (((entries.flatMap linesOf).mapM (toSample float)).bind fun samples =>
      samples.foldlM (addSample lower) earlier) =
    (entries.mapM fun entry => (reread float entry.2.1).bind fun requests =>
      (reread float entry.2.2).map fun sent => (entry.1, requests, sent)).map (earlier ++ ·) := by
  induction entries generalizing earlier with
  | nil => simp
  | cons entry entries ih =>
      obtain ⟨host, requests, sent⟩ := entry
      obtain ⟨written, accepted⟩ := clean _ List.mem_cons_self
      have new : host ∉ earlier.map (·.1) := by
        rw [List.map_append, List.map_cons, List.nodup_append] at distinct
        exact fun member => distinct.2.2 _ member _ List.mem_cons_self rfl
      have first : ∀ value, addSample lower earlier
          ⟨requestsTotal, [("host", host), ("server", serverName)], value⟩ =
            (int? value).map fun amount => earlier ++ [(host, amount, 0)] := by
        intro value
        rw [addSample, edgeHost_written lowercase written accepted (.inl rfl)]
        refine congrArg (fun amounts => (int? value).map amounts) (funext fun amount => ?_)
        rw [count_new new]
        simp [credit]
      have second : ∀ amount value, addSample lower (earlier ++ [(host, amount, 0)])
          ⟨responseBytes, [("host", host), ("server", serverName)], value⟩ =
            (int? value).map fun more => earlier ++ [(host, amount, more)] := by
        intro amount value
        have different : responseBytes ≠ requestsTotal := by decide
        rw [addSample, edgeHost_written lowercase written accepted (.inr rfl)]
        refine congrArg (fun amounts => (int? value).map amounts) (funext fun more => ?_)
        rw [count_last new]
        simp [credit, different]
      have later := fun amounts : Int × Int => ih
        (fun next member => clean next (List.mem_cons_of_mem _ member)) (earlier ++ [(host, amounts)])
        (by simpa using distinct)
      have read : ∀ (name : String) (total : Int), toSample float ⟨name, [("host", host), ("server", serverName)],
          toString total⟩ = (float (toString total)).map
            fun value => ⟨name, [("host", host), ("server", serverName)], value⟩ := fun _ _ => rfl
      rw [List.flatMap_cons, linesOf, List.cons_append, List.cons_append, List.nil_append,
        List.mapM_cons, List.mapM_cons, List.mapM_cons, read, read]
      dsimp only [reread] at later ⊢
      generalize (entries.flatMap linesOf).mapM (toSample float) = samples at later ⊢
      generalize (entries.mapM fun entry : String × Int × Int => (_ : Option (String × Int × Int))) =
        totals at later ⊢
      generalize float (toString requests) = readFirst
      generalize float (toString sent) = readSecond
      cases samples with
      | none =>
          have nothing : totals = none := by simpa using later (0, 0)
          simp [nothing]
      | some samples =>
          cases readFirst with
          | none => rfl
          | some value =>
              cases readSecond with
              | none => simp
              | some other =>
                  cases whole : int? value with
                  | none => simp [first, whole]
                  | some amount =>
                      cases wholeOther : int? other with
                      | none => simp [first, second, whole, wholeOther]
                      | some more =>
                          have rest := later (amount, more)
                          simp only [List.append_assoc, List.cons_append, List.nil_append,
                            Option.bind_some] at rest
                          simp only [Option.map_some, Option.bind_some, List.foldlM_cons, first,
                            second, whole, wholeOther, rest, Option.pure_def, Option.bind_eq_bind]
                          cases totals with
                          | none => rfl
                          | some totals => rfl

end Reread

section Gateway

variable {parse : String → Option (List Sample)} {float : String → Option PyFloat}
  {lower : String → String}

/-- The text of hosts without a line feed is read as their totals, each read again. -/
theorem parseTotals_renderTotals (parser : TextParser parse float) (lowercase : Lowercase lower)
    {totals : Totals} (nodup : (totals.map (·.1)).Nodup)
    (clean : ∀ entry ∈ totals, hostShape entry.1.toList = true) :
    parseTotals parse lower (renderTotals totals) =
      (sortedTotals totals).mapM fun entry => (reread float entry.2.1).bind fun requests =>
        (reread float entry.2.2).map fun sent => (entry.1, requests, sent) := by
  have sorted := sortedTotals_perm nodup
  have shapes : ∀ entry ∈ sortedTotals totals, hostShape entry.1.toList = true :=
    fun entry member => clean entry (sorted.mem_iff.mp member)
  have distinct : ((sortedTotals totals).map (·.1)).Nodup := (sorted.map (·.1)).nodup_iff.mpr nodup
  rw [parseTotals, renderTotals_print fun entry member => hostShape_characters (shapes entry member),
    parser.reads]
  · have lines : (if sortedTotals totals = [] then [none]
        else ((sortedTotals totals).flatMap linesOf).map some).filterMap id =
          (sortedTotals totals).flatMap linesOf := by
      split
      next empty =>
        rw [empty]
        rfl
      next => rw [List.filterMap_map, Function.id_comp, List.filterMap_some]
    rw [lines]
    have whole : ((((sortedTotals totals).flatMap linesOf).mapM (toSample float)).bind
        fun samples => samples.foldlM (addSample lower) []) = _ := reread_lines lowercase
      (fun entry member => ⟨hostShape_characters (shapes entry member), by
        rw [matchesHost, shapes entry member, Bool.true_or]⟩) [] distinct
    simpa using whole
  · intro line member sample among
    split at member
    next =>
      rw [List.mem_singleton.mp member] at among
      cases among
    next =>
      obtain ⟨written, listed, rfl⟩ := List.mem_map.mp member
      obtain ⟨entry, -, inside⟩ := List.mem_flatMap.mp listed
      cases among
      exact linesOf_wellFormed entry _ inside

/-- A host with a line feed is not read again: its line is broken in two. -/
theorem lineFeed_lost (parser : TextParser parse float) (lowercase : Lowercase lower)
    {totals again : Totals} (nodup : (totals.map (·.1)).Nodup)
    (accepted : ∀ entry ∈ totals, matchesHost entry.1.toList = true)
    (read : parseTotals parse lower (renderTotals totals) = some again) :
    ∀ entry ∈ again, '\n' ∉ entry.1.toList := by
  intro entry member inside
  have unescaped : '\\' ∉ (renderTotals totals).toList := by
    apply backslash_renderTotals
    intro other listed backslash
    have characters := matchesHost_characters (accepted other ((sortedTotals_perm nodup).mem_iff.mp listed))
    rcases characters _ backslash with allowed | lineFeed
    · exact absurd allowed (by decide)
    · exact absurd lineFeed (by decide)
  obtain ⟨samples, parsed, -⟩ := Option.bind_eq_some_iff.mp read
  have counts := Counts.of_parse parsed read
  obtain ⟨sample, among, counted⟩ := (counts.hosts entry.1).mp (List.mem_map.mpr ⟨entry, member, rfl⟩)
  obtain ⟨label, labelled, written⟩ : ∃ label ∈ sample.labels, '\n' ∈ label.2.toList := by
    unfold edgeHost at counted
    dsimp only at counted
    split_ifs at counted with _ _ _
    rw [← Option.some.inj counted] at inside
    have raw := lowercase.lineFeed _ inside
    cases found : sample.labels.lookup "host" with
    | none =>
        rw [found] at raw
        exact absurd raw (by decide)
    | some host =>
        rw [found] at raw
        obtain ⟨before, after, rows, -⟩ := List.lookup_eq_some_iff.mp found
        refine ⟨("host", host), ?_, raw⟩
        rw [rows]
        exact List.mem_append_right _ List.mem_cons_self
  exact unescaped (parser.lineFeed _ _ parsed sample among label labelled written)

/-- What comes of one entry that is read again. -/
theorem reread_of_mapM {entries again : Totals}
    (all : (entries.mapM fun entry => (reread float entry.2.1).bind fun requests =>
      (reread float entry.2.2).map fun sent => (entry.1, requests, sent)) = some again) :
    ∀ entry ∈ entries, ∃ requests sent, reread float entry.2.1 = some requests ∧
      reread float entry.2.2 = some sent ∧ (entry.1, requests, sent) ∈ again := by
  induction entries generalizing again with
  | nil => exact fun _ member => by cases member
  | cons first entries ih =>
      rw [List.mapM_cons, Option.bind_eq_bind, Option.bind_eq_some_iff] at all
      obtain ⟨written, stepped, all⟩ := all
      rw [Option.bind_eq_bind, Option.bind_eq_some_iff] at all
      obtain ⟨rest, later, same⟩ := all
      cases same
      intro entry member
      rcases List.mem_cons.mp member with rfl | member
      · rw [Option.bind_eq_some_iff] at stepped
        obtain ⟨requests, read, stepped⟩ := stepped
        rw [Option.map_eq_some_iff] at stepped
        obtain ⟨sent, readSent, rfl⟩ := stepped
        exact ⟨requests, sent, read, readSent, List.mem_cons_self⟩
      · obtain ⟨requests, sent, read, readSent, among⟩ := ih later entry member
        exact ⟨requests, sent, read, readSent, List.mem_cons_of_mem _ among⟩

end Gateway

/-! ## A parser -/

/-- `float` of the text of an integer; how the others are rounded is left out. -/
def integerFloat (text : String) : Option PyFloat :=
  let number : Int := match text.toList with
    | '-' :: digits => -(Nat.ofDigitChars 10 digits 0 : Int)
    | digits => Nat.ofDigitChars 10 digits 0
  if IsDouble number then some (.finite number) else some .nan

theorem integerFloat_toString (number : Int) : integerFloat (toString number) =
    if IsDouble number then some (.finite number) else some .nan := by
  cases number with
  | ofNat value =>
      have digits : (toString (Int.ofNat value)).toList = Nat.toDigits 10 value := by
        show (toString value).toList = _
        rw [Nat.toString_eq_ofList_toDigits, String.toList_ofList]
      have unsigned : ∀ rest, Nat.toDigits 10 value ≠ '-' :: rest := by
        intro rest same
        have digit := Nat.isDigit_of_mem_toDigits (b := 10) (by omega) (by omega)
          (same ▸ List.mem_cons_self : '-' ∈ Nat.toDigits 10 value)
        exact absurd digit (by decide)
      unfold integerFloat
      rw [digits]
      split
      next rest same => exact absurd same (unsigned rest)
      next => rw [Nat.ofDigitChars_ten_toDigits]; rfl
  | negSucc value =>
      have digits : (toString (Int.negSucc value)).toList = '-' :: Nat.toDigits 10 (value + 1) := by
        show ("-" ++ toString (value + 1)).toList = _
        rw [String.toList_append, Nat.toString_eq_ofList_toDigits]
        exact congrArg (['-'] ++ ·) String.toList_ofList
      unfold integerFloat
      rw [digits]
      simp only [Nat.ofDigitChars_ten_toDigits]
      rfl

/-- The samples of the lines that `ExpositionFormat.read` finds. -/
def textParser (text : String) : Option (List Sample) :=
  (ExpositionFormat.read text.toList).bind fun lines => lines.mapM (toSample integerFloat)

theorem textParser_reads : TextParser textParser integerFloat := by
  constructor
  case reads =>
    intro lines wellFormed
    rw [textParser, String.toList_ofList, read_print wellFormed]
    rfl
  case lineFeed =>
    intro text samples parsed sample member label labelled lineFeed
    obtain ⟨lines, found, all⟩ := Option.bind_eq_some_iff.mp parsed
    obtain ⟨line, among, written⟩ := exists_of_mapM all member
    obtain ⟨value, -, rfl⟩ := Option.map_eq_some_iff.mp written
    exact escaped_of_lineFeed found among labelled lineFeed
  case whole =>
    intro number
    rw [integerFloat_toString]
    split
    next double => exact ⟨fun _ => double, fun _ => by simp [int?]⟩
    next other => exact ⟨fun same => by simp [int?] at same, fun double => absurd double other⟩

theorem lower_lowercase : Lowercase PythonText.lower := by
  constructor
  case fixed =>
    intro text characters
    apply lower_of_none
    intro character member
    have accepted := characters character member
    have range : ¬ (65 ≤ character.toNat ∧ character.toNat ≤ 90) := by
      unfold isHostCharacter isHostEnd at accepted
      simp only [Bool.or_eq_true, Bool.and_eq_true, decide_eq_true_eq, beq_iff_eq,
        Char.le_def, UInt32.le_iff_toNat_le] at accepted
      rcases accepted with ((small | digit) | rfl) | rfl
      · change 97 ≤ character.toNat ∧ character.toNat ≤ 122 at small
        omega
      · change 48 ≤ character.toNat ∧ character.toNat ≤ 57 at digit
        omega
      · decide
      · decide
    unfold Char.toLower
    split
    next upper => exact absurd upper range
    next => rfl
  case lineFeed =>
    intro text member
    rw [PythonText.lower, String.toList_ofList] at member
    obtain ⟨character, inside, same⟩ := List.mem_map.mp member
    unfold Char.toLower at same
    split at same
    next upper =>
      have code := congrArg (fun letter : Char => letter.val.toNat) same
      change 65 ≤ character.val.toNat ∧ character.val.toNat ≤ 90 at upper
      change (character.val + 32).toNat = 10 at code
      rw [UInt32.toNat_add] at code
      change (character.val.toNat + 32) % 2 ^ 32 = 10 at code
      omega
    next => rwa [← same]

/-! ## Through the gateway -/

/-- The reconciler reads through the gateway what Caddy counted, exactly when no host that is counted
ends with a line feed and every sum is an integer a double holds. -/
theorem traffic_totals_survive_iff {parse : String → Option (List Sample)}
    {float : String → Option PyFloat} {lower : String → String} (parser : TextParser parse float) (lowercase : Lowercase lower)
    {text : String} {samples : List Sample} {totals : Totals} (parsed : parse text = some samples)
    (accepted : parseTotals parse lower text = some totals) :
    (∃ body again, getMetrics parse lower (some (200, text)) = some (200, body) ∧
      parseTotals parse lower body = some again ∧ again.Perm totals) ↔
    ∀ host, (∃ sample ∈ samples, edgeHost lower sample = some host) →
      host.toList.getLast? ≠ some '\n' ∧ IsDouble (sumOf lower samples requestsTotal host) ∧
        IsDouble (sumOf lower samples responseBytes host) := by
  obtain ⟨nodup, hosts, sums⟩ := Counts.of_parse parsed accepted
  have answered : getMetrics parse lower (some (200, text)) = some (200, renderTotals totals) := by
    rw [getMetrics, if_neg (not_not.mpr rfl), accepted]
    rfl
  have matched : ∀ entry ∈ totals, matchesHost entry.1.toList = true := by
    intro entry member
    obtain ⟨sample, -, counted⟩ := (hosts entry.1).mp (List.mem_map.mpr ⟨entry, member, rfl⟩)
    exact edgeHost_matches counted
  constructor
  · rintro ⟨body, again, gateway, read, same⟩ host counted
    rw [answered] at gateway
    obtain rfl : renderTotals totals = body := congrArg Prod.snd (Option.some.inj gateway)
    have plain : ∀ entry ∈ totals, '\n' ∉ entry.1.toList := fun entry member =>
      lineFeed_lost parser lowercase nodup matched read entry (same.mem_iff.mpr member)
    obtain ⟨entry, member, rfl⟩ := List.mem_map.mp ((hosts host).mpr counted)
    have last : ∀ entry ∈ totals, entry.1.toList.getLast? ≠ some '\n' := fun entry member final =>
      plain entry member (List.mem_of_getLast? final)
    rw [parseTotals_renderTotals parser lowercase nodup fun entry member =>
      hostShape_of_last (matched entry member) (last entry member)] at read
    obtain ⟨requests, sent, readRequests, readSent, among⟩ := reread_of_mapM read entry
      ((sortedTotals_perm nodup).mem_iff.mpr member)
    -- Both entries of the host are in the totals.
    have own : (entry.1, requests, sent) = entry :=
      List.inj_on_of_nodup_map nodup (same.mem_iff.mp among) member rfl
    have amounts := (congrArg Prod.snd own).trans (sums entry member)
    obtain ⟨rfl, rfl⟩ := Prod.mk.inj amounts
    rw [sums entry member] at readRequests readSent
    exact ⟨last entry member, (parser.whole _).mp readRequests, (parser.whole _).mp readSent⟩
  · intro each
    have each := fun entry (member : entry ∈ totals) =>
      each entry.1 ((hosts entry.1).mp (List.mem_map.mpr ⟨entry, member, rfl⟩))
    have sorted := sortedTotals_perm nodup
    refine ⟨_, sortedTotals totals, answered, ?_, sorted⟩
    rw [parseTotals_renderTotals parser lowercase nodup fun entry member =>
      hostShape_of_last (matched entry member) (each entry member).1]
    apply mapM_reread
    intro entry member
    obtain ⟨-, requests, sent⟩ := each entry (sorted.mem_iff.mp member)
    rw [sums entry (sorted.mem_iff.mp member)]
    exact ⟨(parser.whole _).mpr requests, (parser.whole _).mpr sent⟩

/-- A host as Caddy counts it. -/
theorem traffic_totals_survive_iff_plain :
    ∃ body again, getMetrics textParser PythonText.lower
        (some (200, "caddy_http_requests_total\x7bhost=\"Example.com\",server=\"edge\"\x7d 1\n")) =
          some (200, body) ∧
      parseTotals textParser PythonText.lower body = some again ∧ again.Perm [("example.com", 1, 0)] := by
  have parsed : textParser "caddy_http_requests_total\x7bhost=\"Example.com\",server=\"edge\"\x7d 1\n" =
      some [⟨requestsTotal, [("host", "Example.com"), ("server", serverName)], .finite 1⟩] := by
    decide +kernel
  apply (traffic_totals_survive_iff textParser_reads lower_lowercase parsed (by decide +kernel)).mpr
  intro host counted
  obtain ⟨sample, member, counted⟩ := counted
  rw [List.mem_singleton.mp member] at counted
  have known : edgeHost PythonText.lower
      ⟨requestsTotal, [("host", "Example.com"), ("server", serverName)], .finite 1⟩ =
        some "example.com" := by
    decide +kernel
  obtain rfl : "example.com" = host := Option.some.inj (known.symm.trans counted)
  have requests : sumOf PythonText.lower
      [⟨requestsTotal, [("host", "Example.com"), ("server", serverName)], .finite 1⟩] requestsTotal
        "example.com" = 1 := by
    decide +kernel
  have sent : sumOf PythonText.lower
      [⟨requestsTotal, [("host", "Example.com"), ("server", serverName)], .finite 1⟩] responseBytes
        "example.com" = 0 := by
    decide +kernel
  rw [requests, sent]
  exact ⟨by decide, isDouble_of_lt (by decide), isDouble_of_lt (by decide)⟩

/-- The escaped line feed at the end of a host passes the pattern's `$`, and what is written for it is
not read. -/
theorem traffic_line_feed_lost :
    TextParser textParser integerFloat ∧ Lowercase PythonText.lower ∧
    parseTotals textParser PythonText.lower
      "caddy_http_requests_total\x7bhost=\"a\\n\",server=\"edge\"\x7d 1\n" = some [("a\n", 1, 0)] ∧
    ∀ body again, getMetrics textParser PythonText.lower
        (some (200, "caddy_http_requests_total\x7bhost=\"a\\n\",server=\"edge\"\x7d 1\n")) =
          some (200, body) →
      parseTotals textParser PythonText.lower body = some again → ¬ again.Perm [("a\n", 1, 0)] := by
  have unread : ((getMetrics textParser PythonText.lower
      (some (200, "caddy_http_requests_total\x7bhost=\"a\\n\",server=\"edge\"\x7d 1\n"))).bind
        fun response => parseTotals textParser PythonText.lower response.2) = none := by
    decide +kernel
  refine ⟨textParser_reads, lower_lowercase, by decide +kernel, ?_⟩
  intro body again gateway read
  rw [gateway, Option.bind_some, read] at unread
  cases unread

end CustomDomain.Traffic
