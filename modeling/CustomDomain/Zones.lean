import CustomDomain.DnsChecks
import CustomDomain.DomainService
import Mathlib.Data.List.Chain

/-!
# The zone a hostname's records live in

`app/dns/zones.py`: the zone assumed for a hostname, its host part inside a zone, and the walk
from the hostname's parent up to its registrable domain.  A candidate zone is the hostname
without some of its first labels.
-/

namespace CustomDomain.Zones

open PythonText

/-- `host_in_zone`, with the text of its `ValueError`. -/
def hostInZone (hostname zone : String) : Except String String :=
  let hostname := plainName hostname
  let zone := plainName zone
  if hostname = zone then .ok "@"
  else if endsWith ("." ++ zone) hostname then
    .ok (String.ofList (hostname.toList.take (hostname.length - (zone.length + 1))))
  else .error (hostname ++ " is not inside " ++ zone)

/-- The loop of `candidate_zones`, which cuts the name at its next dot each time. -/
def zonesAbove (top : String) : List Char → List String
  | [] => []
  | character :: rest =>
      if character = '.' then
        let name := String.ofList rest
        if name ≠ top ∧ endsWith ("." ++ top) name = false then []
        else if name = top then [name]
        else name :: zonesAbove top rest
      else zonesAbove top rest

/-- `candidate_zones`. -/
def candidateZones (tables : NameTables) (hostname : String) : List String :=
  let hostname := plainName hostname
  let top := defaultZone tables hostname
  match zonesAbove top hostname.toList with
  | [] => [top]
  | zones => zones

structure ZoneLookup where
  zone : String
  nameservers : List String
  errorCode : Option String := none
  message : Option String := none
  deriving DecidableEq

/-- `sorted({ns.rstrip(".").lower() for ns in nameservers if ns})`. -/
def cleanedServers (servers : List String) : List String :=
  ((servers.filter (· ≠ "")).map plainName).dedup.mergeSort fun first second =>
    decide (first ≤ second)

/-- The loop of `find_zone`; `last` is `candidates[-1]`. -/
def firstServed (ns : String → Except DnsError (List String)) (last : String) :
    List String → ZoneLookup
  | [] =>
      { zone := last
        nameservers := []
        errorCode := some "nameservers_not_found"
        message := some ("No NS records were found for " ++ last ++ "; is the domain registered?") }
  | name :: rest =>
      match ns name with
      | .error .nameNotFound => firstServed ns last rest
      | .error (.unavailable text) =>
          { zone := last
            nameservers := []
            errorCode := some "dns_timeout"
            message := some ("NS lookup for " ++ name ++ " failed: " ++ text) }
      | .ok [] => firstServed ns last rest
      | .ok servers => { zone := name, nameservers := cleanedServers servers }

/-- `find_zone`. -/
def findZone (tables : NameTables) (ns : String → Except DnsError (List String))
    (hostname : String) : ZoneLookup :=
  let candidates := candidateZones tables hostname
  firstServed ns (candidates.getLastD "") candidates

/-- The zone and the host part that `domain_setup` shows. -/
def setupZone (tables : NameTables) (domain : Domain) : Except String (String × String) :=
  let zone := match domain.zone with
    | some zone => if zone = "" then defaultZone tables domain.hostname else zone
    | none => defaultZone tables domain.hostname
  match hostInZone domain.hostname zone with
  | .ok host => .ok (zone, host)
  | .error _ =>
      let zone := defaultZone tables domain.hostname
      (hostInZone domain.hostname zone).map fun host => (zone, host)

/-! ## Names without a final dot and capitals -/

structure Plain (name : String) : Prop where
  lower : ∀ character ∈ name.toList, character.toLower = character
  last : name.toList.getLast? ≠ some '.'

section Plain

variable {name front zone : String}

theorem Plain.plainName_eq (plain : Plain name) : plainName name = name := by
  have stripped : rstripOf '.' name = name := by
    rw [rstripOf, List.rdropWhile_eq_self_iff.mpr, String.ofList_toList]
    intro nonempty
    rw [beq_iff_eq]
    intro dotted
    exact plain.last ((List.getLast?_eq_some_getLast nonempty).trans (congrArg some dotted))
  rw [plainName, stripped, lower_of_none plain.lower]

theorem toList_below (front zone : String) :
    (front ++ "." ++ zone).toList = front.toList ++ '.' :: zone.toList := by
  simp

theorem Plain.below (plain : Plain (front ++ "." ++ zone)) : Plain zone := by
  obtain ⟨lower, last⟩ := plain
  rw [toList_below] at lower last
  constructor
  case lower =>
    intro character member
    exact lower character (List.mem_append_right _ (List.mem_cons_of_mem _ member))
  case last =>
    intro dotted
    apply last
    rw [List.getLast?_append, List.getLast?_cons, dotted]
    rfl

theorem Plain.hostInZone_below (plain : Plain (front ++ "." ++ zone)) :
    hostInZone (front ++ "." ++ zone) zone = .ok front := by
  have longer : (front ++ "." ++ zone).length = front.length + (zone.length + 1) := by
    rw [← String.length_toList, toList_below, List.length_append, List.length_cons,
      String.length_toList, String.length_toList]
  have different : front ++ "." ++ zone ≠ zone := by
    intro same
    have lengths := congrArg String.length same
    omega
  have inside : endsWith ("." ++ zone) (front ++ "." ++ zone) = true := by
    rw [endsWith, List.isSuffixOf_iff_suffix]
    exact ⟨front.toList, by simp⟩
  simp only [hostInZone, plain.plainName_eq, plain.below.plainName_eq, if_neg different, inside,
    if_true]
  rw [toList_below, longer, Nat.add_sub_cancel, ← String.length_toList, List.take_left,
    String.ofList_toList]

theorem parent?_dot (rest : List Char) :
    parent? (String.ofList ('.' :: rest)) = some (String.ofList rest) := by
  simp [parent?, partition]

theorem parent?_cons {character : Char} (other : character ≠ '.') (rest : List Char) :
    parent? (String.ofList (character :: rest)) = parent? (String.ofList rest) := by
  simp only [parent?, partition, String.toList_ofList]
  rw [List.dropWhile_cons_of_pos (by simpa using other)]
  split <;> rfl

end Plain

/-! ## The walk up to the registrable domain -/

/-- The names from a hostname's parent to `top`, each the one before without its first label. -/
structure Ladder (hostname top : String) (zones : List String) : Prop where
  first : zones.head? = parent? hostname
  last : zones.getLast? = some top
  steps : zones.IsChain fun zone next => parent? zone = some next
  below : ∀ zone ∈ zones, ∃ front, hostname = front ++ "." ++ zone

/-- By the characters in front of `top`: a dot begins the next zone. -/
theorem zonesAbove_ladder (top : String) (front : List Char) :
    Ladder (String.ofList (front ++ '.' :: top.toList)) top
      (zonesAbove top (front ++ '.' :: top.toList)) := by
  induction front with
  | nil =>
      have zones : zonesAbove top ('.' :: top.toList) = [top] := by
        simp [zonesAbove, String.ofList_toList]
      rw [List.nil_append, zones]
      constructor
      case first => rw [parent?_dot, String.ofList_toList, List.head?_cons]
      case last => rfl
      case steps => exact .singleton _
      case below =>
        intro zone member
        rw [List.mem_singleton.mp member]
        exact ⟨"", String.toList_injective (by simp)⟩
  | cons character front ih =>
      obtain ⟨first, last, steps, below⟩ := ih
      rw [List.cons_append]
      by_cases dot : character = '.'
      · subst dot
        have longer : String.ofList (front ++ '.' :: top.toList) ≠ top := by
          intro same
          have lengths := congrArg (fun name => name.toList.length) same
          simp only [String.toList_ofList, List.length_append, List.length_cons] at lengths
          omega
        have inside : endsWith ("." ++ top) (String.ofList (front ++ '.' :: top.toList)) = true := by
          rw [endsWith, List.isSuffixOf_iff_suffix]
          exact ⟨front, by simp⟩
        have zones : zonesAbove top ('.' :: (front ++ '.' :: top.toList)) =
            String.ofList (front ++ '.' :: top.toList) ::
              zonesAbove top (front ++ '.' :: top.toList) := by
          rw [zonesAbove]
          simp only [if_true, inside, longer, ne_eq, not_false_eq_true, Bool.true_eq_false,
            and_false, if_false]
        rw [zones]
        constructor
        case first => rw [parent?_dot, List.head?_cons]
        case last => rw [List.getLast?_cons, last, Option.getD_some]
        case steps =>
          refine steps.cons fun next isNext => ?_
          rw [← first]
          exact isNext
        case below =>
          intro zone member
          rcases List.mem_cons.mp member with rfl | later
          · exact ⟨"", String.toList_injective (by simp)⟩
          · obtain ⟨before, split⟩ := below zone later
            refine ⟨"." ++ before, String.toList_injective ?_⟩
            have characters := congrArg String.toList split
            rw [String.toList_ofList, toList_below] at characters
            rw [String.toList_ofList, toList_below, characters]
            simp
      · have zones : zonesAbove top (character :: (front ++ '.' :: top.toList)) =
            zonesAbove top (front ++ '.' :: top.toList) := by
          rw [zonesAbove, if_neg dot]
        rw [zones]
        constructor
        case first => rw [first, parent?_cons dot]
        case last => exact last
        case steps => exact steps
        case below =>
          intro zone member
          obtain ⟨before, split⟩ := below zone member
          refine ⟨String.singleton character ++ before, String.toList_injective ?_⟩
          have characters := congrArg String.toList split
          rw [String.toList_ofList, toList_below] at characters
          rw [String.toList_ofList, toList_below, characters]
          simp

/-- What the public suffix list promises: a name's private suffix is the name itself or ends it
after a dot. -/
def EndsAtLabel (tables : NameTables) : Prop :=
  ∀ name suffix, tables.privateSuffix name = some suffix →
    suffix = name ∨ ∃ front, name = front ++ "." ++ suffix

section Canonical

variable {tables : NameTables} {raw name : String}

theorem toLower_toLower (character : Char) : character.toLower.toLower = character.toLower := by
  by_cases upper : character.val ≥ 'A'.val ∧ character.val ≤ 'Z'.val
  · have lowered : character.toLower.val = character.val + ('a'.val - 'A'.val) := by
      unfold Char.toLower
      rw [dif_pos upper]
    have above : ¬ character.toLower.val ≤ 'Z'.val := by
      have first : 65 ≤ character.val.toNat := upper.1
      have last : character.val.toNat ≤ 90 := upper.2
      rw [lowered, UInt32.le_iff_toNat_le, UInt32.toNat_add]
      show ¬ (character.val.toNat + 32) % 2 ^ 32 ≤ 90
      omega
    generalize character.toLower = again at above
    unfold Char.toLower
    rw [dif_neg fun both => above both.2]
  · have same : character.toLower = character := by
      unfold Char.toLower
      rw [dif_neg upper]
    rw [same, same]

/-- A customer's hostname is a name below its registrable domain, without a final dot or capitals,
and none of its labels is `@`. -/
theorem canonical_below (boundary : EndsAtLabel tables)
    (accepted : canonicalize tables raw false = .ok name) :
    Plain name ∧ (∀ host zone, name = host ++ "." ++ zone → host ≠ "@") ∧
      ∃ front top, tables.privateSuffix name = some top ∧ name = front ++ "." ++ top := by
  obtain ⟨text, customer⟩ := canonicalize_ok accepted
  obtain ⟨value, encoded, encode, same, short, valid, -⟩ := canonicalText_ok text
  refine ⟨⟨?_, getLast?_of_validLabels valid⟩, ?_, ?_⟩
  · rw [same, lower, String.toList_ofList]
    intro character member
    obtain ⟨before, -, rfl⟩ := List.mem_map.mp member
    exact toLower_toLower before
  · rintro host zone rfl rfl
    have dotless : '.' ∉ "@".toList := by decide
    have labels : split '.' ("@" ++ "." ++ zone) = "@" :: split '.' zone := split_append dotless
    exact absurd (valid "@" (by rw [labels]; exact List.mem_cons_self)) (by decide)
  · have rules := customer rfl
    unfold customerRules at rules
    simp only at rules
    split at rules
    next => cases rules
    next =>
      split at rules
      next => cases rules
      next top found =>
        split at rules
        next => cases rules
        next proper =>
          rcases boundary name top found with itself | ⟨front, split⟩
          · exact absurd (.inl itself) proper
          · exact ⟨front, top, found, split⟩

/-- Below its private suffix, a hostname has that suffix as the zone assumed for it. -/
theorem defaultZone_below {front top : String} (plain : Plain name)
    (found : tables.privateSuffix name = some top) (below : name = front ++ "." ++ top) :
    defaultZone tables name = top := by
  have proper : top ≠ name := by
    intro same
    have lengths := congrArg (fun name => name.toList.length) below
    simp only [toList_below, List.length_append, List.length_cons, same] at lengths
    omega
  simp only [defaultZone, registrableDomain, plain.plainName_eq, found]
  exact if_pos proper

theorem candidateZones_ladder (boundary : EndsAtLabel tables)
    (accepted : canonicalize tables raw false = .ok name) :
    ∃ top, tables.privateSuffix name = some top ∧
      defaultZone tables name = top ∧
      Ladder name top (candidateZones tables name) := by
  obtain ⟨plain, -, front, top, found, below⟩ := canonical_below boundary accepted
  have default := defaultZone_below plain found below
  have ladder : Ladder name top (zonesAbove top name.toList) := by
    have walked := zonesAbove_ladder top front.toList
    rwa [← toList_below, ← below, String.ofList_toList] at walked
  refine ⟨top, found, default, ?_⟩
  simp only [candidateZones, plain.plainName_eq, default]
  split
  next empty =>
    have last := ladder.last
    rw [empty] at last
    cases last
  next => exact ladder

end Canonical

theorem candidateZones_ne_nil (tables : NameTables) (hostname : String) :
    candidateZones tables hostname ≠ [] := by
  simp only [candidateZones]
  split
  next => exact List.cons_ne_nil _ _
  next nonempty => exact nonempty

theorem split_below (front zone : String) :
    split '.' (front ++ "." ++ zone) = split '.' front ++ split '.' zone := by
  rw [split, toList_below, List.splitOn_append_cons_self, List.map_append]
  rfl

/-- A zone of the ladder has the hostname's labels but for some first ones. -/
theorem Ladder.labels {hostname top zone : String} {zones : List String}
    (ladder : Ladder hostname top zones) (member : zone ∈ zones) :
    ∃ labels, labels ≠ [] ∧ split '.' hostname = labels ++ split '.' zone := by
  obtain ⟨front, below⟩ := ladder.below zone member
  refine ⟨split '.' front, ?_, ?_⟩
  · rw [split, ne_eq, List.map_eq_nil_iff]
    exact List.splitOn_ne_nil _ _
  · rw [below, split_below]

/-! ## The zone found -/

/-- The lookup of a name that has no nameservers of its own. -/
def Unserved (ns : String → Except DnsError (List String)) (name : String) : Prop :=
  ns name = .error .nameNotFound ∨ ns name = .ok []

section Find

variable (ns : String → Except DnsError (List String)) (last : String)

theorem firstServed_mem (names : List String) :
    (firstServed ns last names).zone ∈ names ∨ (firstServed ns last names).zone = last := by
  induction names with
  | nil => exact .inr rfl
  | cons name rest ih =>
      have later := ih.imp_left (List.mem_cons_of_mem name)
      rw [firstServed]
      split
      next => exact later
      next => exact .inr rfl
      next => exact later
      next => exact .inl List.mem_cons_self

variable {ns}

theorem firstServed_of_unserved {before : List String}
    (unserved : ∀ name ∈ before, Unserved ns name) (names : List String) :
    firstServed ns last (before ++ names) = firstServed ns last names := by
  induction before with
  | nil => rfl
  | cons name before ih =>
      have skipped := ih fun other member => unserved other (List.mem_cons_of_mem _ member)
      rw [List.cons_append, firstServed]
      rcases unserved name List.mem_cons_self with missing | empty
      · rw [missing]
        exact skipped
      · rw [empty]
        exact skipped

theorem firstServed_served {name server : String} {servers : List String}
    (served : ns name = .ok (server :: servers)) (rest : List String) :
    firstServed ns last (name :: rest) =
      { zone := name, nameservers := cleanedServers (server :: servers) } := by
  rw [firstServed, served]

end Find

theorem findZone_mem (tables : NameTables) (ns : String → Except DnsError (List String))
    (hostname : String) : (findZone tables ns hostname).zone ∈ candidateZones tables hostname := by
  have nonempty := candidateZones_ne_nil tables hostname
  rw [findZone]
  rcases firstServed_mem ns ((candidateZones tables hostname).getLastD "")
    (candidateZones tables hostname) with member | isLast
  · exact member
  · rw [isLast, List.getLastD_eq_getLast?, List.getLast?_eq_some_getLast nonempty,
      Option.getD_some]
    exact List.getLast_mem nonempty

/-- The first candidate with nameservers, if no lookup before it failed. -/
theorem findZone_first {tables : NameTables} {ns : String → Except DnsError (List String)}
    {hostname zone server : String} {before rest servers : List String}
    (candidates : candidateZones tables hostname = before ++ zone :: rest)
    (unserved : ∀ name ∈ before, Unserved ns name) (served : ns zone = .ok (server :: servers)) :
    findZone tables ns hostname =
      { zone := zone, nameservers := cleanedServers (server :: servers) } := by
  rw [findZone, candidates]
  exact (firstServed_of_unserved _ unserved _).trans (firstServed_served _ served rest)

/-! ## Zones that enclose a hostname -/

/-- The hostname is its host part in the zone, a dot and the zone. -/
def Encloses (hostname zone : String) : Prop :=
  ∃ host, hostInZone hostname zone = .ok host ∧ host ++ "." ++ zone = hostname

theorem Encloses.of_below {hostname zone front : String} (plain : Plain hostname)
    (below : hostname = front ++ "." ++ zone) : Encloses hostname zone := by
  subst below
  exact ⟨front, plain.hostInZone_below, rfl⟩

section Enclosing

variable {tables : NameTables} {raw name zone : String}

theorem encloses_findZone (boundary : EndsAtLabel tables)
    (accepted : canonicalize tables raw false = .ok name)
    (ns : String → Except DnsError (List String)) :
    Encloses name (findZone tables ns name).zone := by
  obtain ⟨plain, -⟩ := canonical_below boundary accepted
  obtain ⟨top, -, -, ladder⟩ := candidateZones_ladder boundary accepted
  obtain ⟨front, below⟩ := ladder.below _ (findZone_mem tables ns name)
  exact .of_below plain below

theorem encloses_defaultZone (boundary : EndsAtLabel tables)
    (accepted : canonicalize tables raw false = .ok name) :
    Encloses name (defaultZone tables name) := by
  obtain ⟨plain, -, front, top, found, below⟩ := canonical_below boundary accepted
  rw [defaultZone_below plain found below]
  exact .of_below plain below

/-- `domain_setup` shows a stored zone that encloses the hostname, with a host below its root. -/
theorem setupZone_of_encloses (boundary : EndsAtLabel tables) {domain : Domain}
    (accepted : canonicalize tables raw false = .ok domain.hostname)
    (stored : domain.zone = some zone) (encloses : Encloses domain.hostname zone) :
    ∃ host, hostInZone domain.hostname zone = .ok host ∧ host ++ "." ++ zone = domain.hostname ∧
      host ≠ "@" ∧ setupZone tables domain = .ok (zone, host) := by
  obtain ⟨plain, notRoot, -⟩ := canonical_below boundary accepted
  obtain ⟨host, relative, whole⟩ := encloses
  have nonempty : zone ≠ "" := by
    rintro rfl
    apply plain.last
    rw [← whole, toList_below]
    simp
  refine ⟨host, relative, whole, notRoot host zone whole.symm, ?_⟩
  simp only [setupZone, stored, if_neg nonempty, relative]

end Enclosing

end CustomDomain.Zones
