import CustomDomain.EdgeGateway
import CustomDomain.IpNetworks

/-!
# Application routes that the gateway accepts

What `_validate_app_route` lets pass is what `_route` builds for some group of hostnames, but for
transports that are null.
-/

namespace CustomDomain.Gateway

open PythonText PythonJson
open Json (SingleValued eq_null isNull lookup lookup_of_pyEq lookup_of_pyGet
  obj_of_pyEq pyEq pyEqItems pyEqItems_append pyEq_null pyEq_str pyGet unique_of_distinct)

/-! ## Passing a check -/

section Checks

variable {α β : Type}

theorem bind_ok {first : Checked α} {next : α → Checked β} {result : β} :
    (first >>= next) = .ok result ↔ ∃ value, first = .ok value ∧ next value = .ok result := by
  cases first with
  | error stop =>
      constructor
      · intro ended
        cases ended
      · intro ended
        obtain ⟨value, same, -⟩ := ended
        cases same
  | ok value =>
      constructor
      · intro ended
        exact ⟨value, rfl, ended⟩
      · intro ended
        obtain ⟨_, same, ended⟩ := ended
        cases same
        exact ended

theorem refuse_ok {refused : Bool} {reason : String} {done : Unit} :
    refuse refused reason = .ok done ↔ refused = false := by
  cases refused <;> simp [refuse, reject]

theorem refuse_bind {refused : Bool} {reason : String} {next : Unit → Checked β} {result : β} :
    (refuse refused reason >>= next) = .ok result ↔ refused = false ∧ next () = .ok result := by
  rw [bind_ok]
  constructor
  · intro passed
    obtain ⟨done, open_, rest⟩ := passed
    exact ⟨refuse_ok.mp open_, rest⟩
  · intro passed
    exact ⟨(), refuse_ok.mpr passed.1, passed.2⟩

theorem forM_unit_ok {check : α → Checked Unit} {items : List α} {done : Unit}
    (ok : items.forM check = .ok done) : ∀ item ∈ items, check item = .ok () := by
  induction items with
  | nil => simp
  | cons first rest ih =>
      rw [List.forM_eq_forM, List.forM_cons, bind_ok] at ok
      obtain ⟨_, here, there⟩ := ok
      intro item member
      rcases List.mem_cons.mp member with rfl | later
      · exact here
      · exact ih there item later

end Checks

/-! ## The text of a value -/

/-- A text that begins, and neither as `app-` nor as `portal` does. -/
def Foreign (text : String) : Prop :=
  ∃ first, text.toList.head? = some first ∧ first ≠ 'a' ∧ first ≠ 'p'

theorem Foreign.append {first : String} (foreign : Foreign first) (second : String) :
    Foreign (first ++ second) := by
  obtain ⟨head, here, others⟩ := foreign
  exact ⟨head, by rw [String.toList_append, List.head?_append, here, Option.some_or], others⟩

theorem foreign_toString (number : Nat) : Foreign (toString number) := by
  cases shape : (toString number).toList with
  | nil =>
      rw [Nat.toString_eq_ofList_toDigits, String.toList_ofList] at shape
      exact absurd shape Nat.toDigits_ne_nil
  | cons first rest =>
      have digit := PythonIp.toString_digits number first (by rw [shape]; exact List.mem_cons_self)
      have letter : ∀ character : Char, character.isDigit = false → first ≠ character := by
        intro character none same
        rw [same, none] at digit
        cases digit
      exact ⟨first, by rw [shape, List.head?_cons], letter 'a' (by decide), letter 'p' (by decide)⟩

/-- Only a text is printed as a route is named. -/
theorem foreign_repr (printing : Printing) {value : Json} (other : ∀ text, value ≠ .str text) :
    Foreign (printing.repr value) := by
  cases value with
  | str text => exact absurd rfl (other text)
  | null => exact ⟨'N', by simp [Printing.repr], by decide, by decide⟩
  | bool value =>
      cases value with
      | false => exact ⟨'F', by simp [Printing.repr], by decide, by decide⟩
      | true => exact ⟨'T', by simp [Printing.repr], by decide, by decide⟩
  | int value =>
      rw [Printing.repr]
      cases value with
      | ofNat number => exact foreign_toString number
      | negSucc number =>
          exact ⟨'-', by simp [toString, Int.repr], by decide, by decide⟩
  | float value =>
      cases value with
      | nan => exact ⟨'n', by simp [Printing.repr], by decide, by decide⟩
      | infinite negative =>
          cases negative with
          | false => exact ⟨'i', by simp [Printing.repr], by decide, by decide⟩
          | true => exact ⟨'-', by simp [Printing.repr], by decide, by decide⟩
      | finite value =>
          rw [Printing.repr]
          split
          apply Foreign.append
          split
          · apply Foreign.append
            exact ⟨'-', by simp, by decide, by decide⟩
          · rw [String.empty_append]
            exact foreign_toString _
  | arr items =>
      rw [Printing.repr]
      exact .append (.append ⟨'[', by simp, by decide, by decide⟩ _) _
  | obj fields =>
      rw [Printing.repr]
      exact .append (.append ⟨'\x7b', by simp, by decide, by decide⟩ _) _

theorem text_of_startsWith {printing : Printing} {value : Json} {start : String}
    (first : start.toList.head? = some 'a' ∨ start.toList.head? = some 'p')
    (named : startsWith start (printing.str value) = true) : ∃ text, value = .str text := by
  by_contra other
  rw [not_exists] at other
  have printed : printing.str value = printing.repr value := by
    cases value with
    | str text => exact absurd rfl (other text)
    | _ => rfl
  obtain ⟨head, here, notA, notP⟩ := foreign_repr printing other
  rw [startsWith, printed, List.isPrefixOf_iff_prefix] at named
  obtain ⟨rest, whole⟩ := named
  rw [← whole, List.head?_append] at here
  rcases first with letter | letter
  · rw [letter, Option.some_or, Option.some.injEq] at here
    exact notA here.symm
  · rw [letter, Option.some_or, Option.some.injEq] at here
    exact notP here.symm

/-! ## What passes -/

theorem sameKeys_iff {fields : List (String × Json)} {keys : List String} :
    sameKeys fields keys = true ↔
      (∀ field ∈ fields, field.1 ∈ keys) ∧ ∀ key ∈ keys, (lookup key fields).isSome = true := by
  simp only [sameKeys, Bool.and_eq_true, List.all_eq_true, decide_eq_true_eq]

theorem of_sameKeys {fields : List (String × Json)} {keys : List String}
    (same : sameKeys fields keys = true) (key : String) (member : key ∈ keys) :
    lookup key fields = some (pyGet key fields) := by
  obtain ⟨value, found⟩ := Option.isSome_iff_exists.mp ((sameKeys_iff.mp same).2 key member)
  rw [pyGet, found, Option.getD_some]

/-- An application route is terminal and named after a slug. -/
theorem of_namedRoute {printing : Printing} {route : Json} {named : NamedRoute}
    (ok : namedRoute printing route = .ok named) :
    ∃ slug fields, route = .obj fields ∧ named = ⟨"app-" ++ slug, fields⟩ ∧
      sameKeys fields ["@id", "match", "handle", "terminal"] = true ∧
      pyGet "@id" fields = .str ("app-" ++ slug) ∧ pyGet "terminal" fields = .bool true := by
  cases route with
  | obj fields =>
      rw [namedRoute, refuse_bind, Bool.not_eq_false'] at ok
      obtain ⟨keys, ok⟩ := ok
      dsimp only at ok
      rw [refuse_bind, Bool.or_eq_false_iff, Bool.not_eq_false', Bool.not_eq_false'] at ok
      obtain ⟨⟨name, terminal⟩, done⟩ := ok
      cases done
      obtain ⟨text, shown⟩ := text_of_startsWith (.inl rfl) name
      rw [shown, Printing.str, startsWith, List.isPrefixOf_iff_prefix] at name
      obtain ⟨slug, whole⟩ := name
      have split : text = "app-" ++ String.ofList slug := by
        apply String.toList_injective
        simp [← whole]
      have final : pyGet "terminal" fields = .bool true := by
        split at terminal
        next same => exact same
        next => cases terminal
      refine ⟨String.ofList slug, fields, rfl, ?_, keys, ?_, final⟩
      · rw [shown, Printing.str, split]
      · rw [shown, split]
  | _ => cases ok

theorem of_onlyElement {key : String} {value : Json} {only : Bool}
    (ok : onlyElement key value = .ok only) :
    ∃ found, elements value = .ok found ∧ only = (!found.isEmpty && found.all (pyEq · (.str key))) := by
  rw [onlyElement, bind_ok] at ok
  obtain ⟨found, ok, same⟩ := ok
  cases same
  exact ⟨found, ok, rfl⟩

/-- One object, with one key. -/
theorem of_singleField {key reason : String} {value inner : Json}
    (ok : singleField key reason value = .ok inner) :
    ∃ fields, value = .arr [.obj fields] ∧ lookup key fields = some inner ∧
      ∀ field ∈ fields, field.1 = key := by
  unfold singleField at ok
  split at ok
  next single =>
    rw [bind_ok] at ok
    obtain ⟨only, checked, ok⟩ := ok
    rw [refuse_bind, Bool.not_eq_false'] at ok
    obtain ⟨rfl, ok⟩ := ok
    obtain ⟨found, listed, all⟩ := of_onlyElement checked
    cases single with
    | obj fields =>
        cases listed
        rw [eq_comm, Bool.and_eq_true, List.all_eq_true] at all
        refine ⟨fields, rfl, ?_, fun field member => ?_⟩
        · unfold subscript at ok
          dsimp only at ok
          split at ok
          next inner found =>
            cases ok
            exact found
          next => cases ok
        · have same := pyEq_str.mp (all.2 (.str field.1) (List.mem_map_of_mem member))
          exact Json.str.inj same
    | _ => cases ok
  next => cases ok

theorem of_hostList {value : Json} {hosts : List Json} (ok : hostList value = .ok hosts) :
    value = .arr hosts ∧ hosts ≠ [] := by
  unfold hostList at ok
  split at ok
  next =>
    cases ok
    exact ⟨rfl, List.cons_ne_nil _ _⟩
  next => cases ok

/-- Canonical names, each of them for the first time. -/
theorem of_validateHostItems {tables : NameTables} {printing : Printing} {seen after : List String}
    {hosts : List Json} (ok : validateHostItems tables printing seen hosts = .ok after) :
    ∃ names : List String, hosts = names.map .str ∧ after = seen ++ names ∧
      (∀ name ∈ names, canonicalize tables name false = .ok name) ∧ (seen.Nodup → after.Nodup) := by
  induction hosts generalizing seen with
  | nil =>
      cases ok
      exact ⟨[], rfl, (List.append_nil _).symm, by simp, id⟩
  | cons host rest ih =>
      rw [validateHostItems] at ok
      split at ok
      next => cases ok
      next canonical accepted =>
        split at ok
        next => cases ok
        next passed =>
          rw [Bool.or_eq_true, not_or, Bool.not_eq_true, Bool.not_eq_false', List.contains_iff_mem] at passed
          have same : host = .str canonical := by
            cases host with
            | str text =>
                rw [pyEq, beq_iff_eq] at passed
                rw [passed.1]
            | _ => simp [pyEq] at passed
          obtain ⟨names, shape, joined, each, nodup⟩ := ih ok
          refine ⟨canonical :: names, ?_, ?_, ?_, ?_⟩
          · rw [same, shape, List.map_cons]
          · rw [joined, List.append_assoc, List.singleton_append]
          · intro name member
            rcases List.mem_cons.mp member with rfl | later
            · rw [same] at accepted
              exact accepted
            · exact each name later
          · intro fresh
            apply nodup
            rw [List.nodup_append_comm, List.singleton_append, List.nodup_cons]
            exact ⟨passed.2, fresh⟩

/-! ## Rate limits -/

/-- The zone that counts an application in one of the windows. -/
def zoneOf (routeId window : String) (count : Int) : Json :=
  .obj [("key", .str routeId), ("window", .str window), ("max_events", .int count)]

theorem lookup_rateWindows {name window : String} (known : rateWindows.lookup name = some window) :
    (name = "minute" ∧ window = "1m") ∨ (name = "second" ∧ window = "1s") := by
  simp only [rateWindows, List.lookup_cons, List.lookup_nil] at known
  split at known
  next same =>
    cases known
    exact .inl ⟨beq_iff_eq.mp same, rfl⟩
  next =>
    split at known
    next same =>
      cases known
      exact .inr ⟨beq_iff_eq.mp same, rfl⟩
    next => cases known

theorem removePrefix_of_startsWith {start text : String} (starts : startsWith start text = true) :
    text = start ++ removePrefix start text := by
  rw [removePrefix, if_pos starts]
  rw [startsWith, List.isPrefixOf_iff_prefix] at starts
  obtain ⟨rest, whole⟩ := starts
  apply String.toList_injective
  rw [String.toList_append, String.toList_ofList, ← whole, ← String.length_toList, List.drop_left]

/-- A zone counts in a minute or in a second, within the range of rates. -/
theorem of_validateZone {printing : Printing} {routeId name : String} {zone : Json}
    (ok : validateZone printing routeId name zone = .ok ()) :
    ∃ count : Int, (1 ≤ count ∧ count ≤ maxRate) ∧
      ((name = routeId ++ "-" ++ "minute" ∧ pyEq zone (zoneOf routeId "1m" count) = true) ∨
        (name = routeId ++ "-" ++ "second" ∧ pyEq zone (zoneOf routeId "1s" count) = true)) := by
  unfold validateZone at ok
  dsimp only at ok
  split at ok
  next window known =>
    rw [refuse_bind, Bool.not_eq_false'] at ok
    obtain ⟨starts, ok⟩ := ok
    rw [refuse_ok, Bool.or_eq_false_iff, Bool.not_eq_false', Bool.not_eq_false'] at ok
    obtain ⟨equal, range⟩ := ok
    split at range
    next count shape =>
      rw [shape] at equal
      have whole := removePrefix_of_startsWith starts
      refine ⟨count, of_decide_eq_true range, ?_⟩
      rcases lookup_rateWindows known with ⟨which, rfl⟩ | ⟨which, rfl⟩
      · rw [which] at whole
        exact .inl ⟨whole, equal⟩
      · rw [which] at whole
        exact .inr ⟨whole, equal⟩
    next => cases range
  next => cases ok

theorem rateZone_eq {routeId name : String} {count : Option Int} (bounded : ∀ rate ∈ count, 1 ≤ rate) :
    rateZone routeId name count = count.toList.map fun count =>
      (routeId ++ "-" ++ name, zoneOf routeId ((rateWindows.lookup name).getD "") count) := by
  have kept : count.filter (· ≠ 0) = count := by
    cases count with
    | none => rfl
    | some rate =>
        have positive := bounded rate rfl
        have nonzero : rate ≠ 0 := by omega
        simp [Option.filter, nonzero]
  rw [rateZone, kept]
  rfl

/-- The zones of an application, by their names. -/
theorem lookup_zones (routeId : String) {perMinute perSecond : Option Int}
    (minute : ∀ rate ∈ perMinute, 1 ≤ rate) (second : ∀ rate ∈ perSecond, 1 ≤ rate) (key : String) :
    lookup key (rateZone routeId "minute" perMinute ++ rateZone routeId "second" perSecond) =
      if key = routeId ++ "-" ++ "minute" then perMinute.map (zoneOf routeId "1m")
      else if key = routeId ++ "-" ++ "second" then perSecond.map (zoneOf routeId "1s")
      else none := by
  have names := rateZone_name routeId
  rw [rateZone_eq minute, rateZone_eq second, show rateWindows.lookup "minute" = some "1m" from rfl,
    show rateWindows.lookup "second" = some "1s" from rfl]
  by_cases one : key = routeId ++ "-" ++ "minute"
  · subst one
    cases perMinute <;> cases perSecond <;> simp [lookup, names]
  · by_cases two : key = routeId ++ "-" ++ "second"
    · subst two
      cases perMinute <;> cases perSecond <;> simp [lookup, names, names.symm]
    · cases perMinute <;> cases perSecond <;> simp [lookup, one, two, Ne.symm one, Ne.symm two]

/-- The count of a zone, where there is such a zone. -/
theorem exists_count {routeId name : String} (window : String) {zones : List (String × Json)}
    (each : ∀ value, lookup (routeId ++ "-" ++ name) zones = some value →
      ∃ count : Int, (1 ≤ count ∧ count ≤ maxRate) ∧ pyEq value (zoneOf routeId window count) = true) :
    ∃ counted : Option Int, (∀ rate ∈ counted, 1 ≤ rate ∧ rate ≤ maxRate) ∧
      (lookup (routeId ++ "-" ++ name) zones).isSome = counted.isSome ∧
      ∀ value rate, lookup (routeId ++ "-" ++ name) zones = some value → counted = some rate →
        pyEq value (zoneOf routeId window rate) = true := by
  cases found : lookup (routeId ++ "-" ++ name) zones with
  | none => exact ⟨none, by simp, rfl, by simp⟩
  | some value =>
      obtain ⟨count, range, equal⟩ := each value found
      exact ⟨some count, by simpa using range, rfl, by simpa using equal⟩

/-- Zones that each count a window are those of a rate limit. -/
theorem zones_eq {routeId : String} {zones : List (String × Json)}
    (unique : ∀ field ∈ zones, lookup field.1 zones = some field.2) (zones_ne_nil : zones ≠ [])
    (each : ∀ field ∈ zones, ∃ count : Int, (1 ≤ count ∧ count ≤ maxRate) ∧
      ((field.1 = routeId ++ "-" ++ "minute" ∧ pyEq field.2 (zoneOf routeId "1m" count) = true) ∨
        (field.1 = routeId ++ "-" ++ "second" ∧ pyEq field.2 (zoneOf routeId "1s" count) = true))) :
    ∃ (perMinute perSecond : Option Int) (built : List (String × Json)),
      (∀ rate ∈ perMinute, 1 ≤ rate ∧ rate ≤ maxRate) ∧
      (∀ rate ∈ perSecond, 1 ≤ rate ∧ rate ≤ maxRate) ∧
      rateLimitHandler routeId perMinute perSecond =
        some (.obj [("handler", .str "rate_limit"), ("rate_limits", .obj built)]) ∧
      pyEq (.obj zones) (.obj built) = true := by
  have names := rateZone_name routeId
  obtain ⟨perMinute, minute, minuteKnown, minuteZone⟩ := exists_count "1m"
    fun value (found : lookup (routeId ++ "-" ++ "minute") zones = some value) => by
      obtain ⟨count, range, ⟨-, equal⟩ | ⟨name, -⟩⟩ := each _ (Json.mem_of_lookup found)
      · exact ⟨count, range, equal⟩
      · exact absurd name.symm names
  obtain ⟨perSecond, second, secondKnown, secondZone⟩ := exists_count "1s"
    fun value (found : lookup (routeId ++ "-" ++ "second") zones = some value) => by
      obtain ⟨count, range, ⟨name, -⟩ | ⟨-, equal⟩⟩ := each _ (Json.mem_of_lookup found)
      · exact absurd name names
      · exact ⟨count, range, equal⟩
  have built := lookup_zones routeId (fun rate member => (minute rate member).1)
    fun rate member => (second rate member).1
  have equal : pyEq (.obj zones)
      (.obj (rateZone routeId "minute" perMinute ++ rateZone routeId "second" perSecond)) = true := by
    apply Json.pyEq_obj unique
    · intro field member
      have here : (lookup field.1 zones).isSome = true := by rw [unique field member]; rfl
      obtain ⟨count, -, ⟨name, -⟩ | ⟨name, -⟩⟩ := each field member
      · rw [built, if_pos name, Option.isSome_map, ← minuteKnown, ← name, here]
      · rw [built, name, if_neg names, if_pos rfl, Option.isSome_map, ← secondKnown, ← name, here]
    · intro field member
      have expected := Json.isSome_lookup_of_mem member
      rw [built] at expected
      split at expected
      next name => rw [name, minuteKnown, ← Option.isSome_map, expected]
      next =>
        split at expected
        next name => rw [name, secondKnown, ← Option.isSome_map, expected]
        next => cases expected
    · intro key value other found expected
      rw [built] at expected
      split at expected
      next name =>
        obtain ⟨rate, same, rfl⟩ := Option.map_eq_some_iff.mp expected
        rw [name] at found
        exact minuteZone value rate found same
      next =>
        split at expected
        next name =>
          obtain ⟨rate, same, rfl⟩ := Option.map_eq_some_iff.mp expected
          rw [name] at found
          exact secondZone value rate found same
        next => cases expected
  have nonempty :
      (rateZone routeId "minute" perMinute ++ rateZone routeId "second" perSecond).isEmpty = false := by
    rw [List.isEmpty_eq_false_iff]
    intro none
    rw [none] at equal
    obtain ⟨field, member⟩ := List.exists_mem_of_ne_nil _ zones_ne_nil
    obtain ⟨other, found, -⟩ := (Json.pyEq_obj_iff.mp equal).1 field member
    cases found
  refine ⟨perMinute, perSecond, _, minute, second, ?_, equal⟩
  rw [rateLimitHandler, nonempty]
  rfl

/-- The rate limit of an application, with one or both of the windows. -/
theorem of_validateRateLimit {printing : Printing} {routeId : String} {handler : Json}
    (distinct : handler.distinct = true) (ok : validateRateLimit printing routeId handler = .ok ()) :
    ∃ (perMinute perSecond : Option Int) (built : Json),
      (∀ rate ∈ perMinute, 1 ≤ rate ∧ rate ≤ maxRate) ∧
      (∀ rate ∈ perSecond, 1 ≤ rate ∧ rate ≤ maxRate) ∧
      rateLimitHandler routeId perMinute perSecond = some built ∧ pyEq handler built = true := by
  cases handler with
  | obj fields =>
      rw [validateRateLimit, refuse_bind, Bool.not_eq_false'] at ok
      obtain ⟨keys, ok⟩ := ok
      split at ok
      next zone zones shape =>
        rw [refuse_bind, Bool.not_eq_false'] at ok
        obtain ⟨named, ok⟩ := ok
        have limits := of_sameKeys keys "rate_limits" (by decide)
        have inside : Json.properFields (fun _ => true) (zone :: zones) = true := by
          have proper := Json.proper_of_lookup distinct limits
          rw [shape] at proper
          exact proper
        obtain ⟨perMinute, perSecond, built, minute, second, handler, equal⟩ := zones_eq
          (fun field member => Json.lookup_of_mem inside member) (List.cons_ne_nil zone zones)
          fun field member => of_validateZone (forM_unit_ok ok field member)
        refine ⟨perMinute, perSecond, _, minute, second, handler, ?_⟩
        apply Json.pyEq_obj fun field member => Json.lookup_of_mem distinct member
        · intro field member
          rcases List.mem_pair.mp ((sameKeys_iff.mp keys).1 field member) with name | name <;>
            (rw [name]; rfl)
        · intro field member
          rcases List.mem_pair.mp member with rfl | rfl
          · exact (sameKeys_iff.mp keys).2 "handler" (by decide)
          · exact (sameKeys_iff.mp keys).2 "rate_limits" (by decide)
        · intro key value other found expected
          rcases List.mem_pair.mp (Json.mem_of_lookup expected) with same | same
          · cases same
            rw [pyGet, found, Option.getD_some] at named
            exact named
          · cases same
            rw [found, Option.some.injEq] at limits
            rw [limits, shape]
            exact equal
      next => cases ok
  | _ => cases ok

/-! ## Nulls that are left out -/

/-- A dictionary without this key where it is null. -/
def withoutNull (key : String) : Json → Json
  | .obj fields => .obj (fields.filter fun field => !(field.1 == key && isNull field.2))
  | value => value

/-- A dictionary with the value of one key changed. -/
def changeField (key : String) (change : Json → Json) : Json → Json
  | .obj fields => .obj (fields.map fun field =>
      (field.1, if field.1 = key then change field.2 else field.2))
  | value => value

def changeItems (change : Json → Json) : Json → Json
  | .arr items => .arr (items.map change)
  | value => value

/-- A route whose handlers have no transport that is null. -/
def cleanedRoute (route : Json) : Json :=
  changeField "handle" (changeItems (withoutNull "transport")) route

/-- A document without a TLS app that is null, and without transports that are null. -/
def cleaned (apps : Json) : Json :=
  withoutNull "tls"
    (changeField "http" (changeField "servers" (changeField serverName (changeField "routes"
      (changeItems cleanedRoute)))) apps)

section Cleaning

variable {fields expected : List (String × Json)} {key : String} {change : Json → Json}

theorem lookup_changeField (name : String) :
    lookup name (fields.map fun field => (field.1, if field.1 = key then change field.2 else field.2)) =
      (lookup name fields).map fun value => if name = key then change value else value := by
  induction fields with
  | nil => rfl
  | cons field rest ih =>
      obtain ⟨other, value⟩ := field
      rw [List.map_cons, lookup, lookup]
      by_cases same : other = name
      · rw [if_pos same, if_pos same, same]
        rfl
      · rw [if_neg same, if_neg same, ih]

theorem unique_changeField (unique : SingleValued fields) :
    SingleValued (fields.map fun field => (field.1, if field.1 = key then change field.2 else field.2)) := by
  intro field member
  obtain ⟨old, inside, rfl⟩ := List.mem_map.mp member
  rw [lookup_changeField, unique old inside, Option.map_some]

theorem lookup_withoutNull (unique : SingleValued fields) (name : String) :
    lookup name (fields.filter fun field => !(field.1 == key && isNull field.2)) =
      (lookup name fields).filter fun value => !(name == key && isNull value) := by
  have inside : ∀ value, lookup name (fields.filter fun field => !(field.1 == key && isNull field.2)) =
      some value → lookup name fields = some value ∧ (!(name == key && isNull value)) = true := by
    intro value found
    obtain ⟨member, kept⟩ := List.mem_filter.mp (Json.mem_of_lookup found)
    exact ⟨unique _ member, kept⟩
  ext value
  rw [Option.filter_eq_some_iff]
  constructor
  · exact inside value
  · intro kept
    have member : (name, value) ∈ fields.filter fun field => !(field.1 == key && isNull field.2) :=
      List.mem_filter.mpr ⟨Json.mem_of_lookup kept.1, kept.2⟩
    obtain ⟨other, found⟩ := Option.isSome_iff_exists.mp (Json.isSome_lookup_of_mem member)
    have same := (inside other found).1
    rw [kept.1, Option.some.injEq] at same
    rw [found, same]

theorem unique_withoutNull (unique : SingleValued fields) :
    SingleValued (fields.filter fun field => !(field.1 == key && isNull field.2)) := by
  intro field member
  obtain ⟨inside, kept⟩ := List.mem_filter.mp member
  rw [lookup_withoutNull unique, unique field inside, Option.filter_some, if_pos kept]

/-- Where the values under all keys are equal, and a null under the one key is not expected. -/
theorem pyEq_withoutNull (unique : SingleValued fields)
    (known : ∀ field ∈ fields, field.1 = key ∨ (lookup field.1 expected).isSome = true)
    (absent : lookup key expected = none → pyGet key fields = .null)
    (values : ∀ name value, lookup name expected = some value →
      value ≠ .null ∧ pyEq (pyGet name fields) value = true) :
    pyEq (Gateway.withoutNull key (.obj fields)) (.obj expected) = true := by
  apply Json.pyEq_obj (unique_withoutNull unique)
  · intro field member
    obtain ⟨inside, kept⟩ := List.mem_filter.mp member
    rcases known field inside with name | there
    · by_contra missing
      rw [Bool.not_eq_true, Option.isSome_eq_false_iff, Option.isNone_iff_eq_none] at missing
      rw [name] at missing
      have got := absent missing
      rw [pyGet, ← name, unique field inside, Option.getD_some] at got
      rw [got, name, beq_self_eq_true] at kept
      cases kept
    · exact there
  · intro field member
    obtain ⟨value, expects⟩ := Option.isSome_iff_exists.mp (Json.isSome_lookup_of_mem member)
    obtain ⟨notNull, equal⟩ := values _ _ expects
    obtain ⟨found, kept⟩ := lookup_of_pyEq equal notNull
    rw [lookup_withoutNull unique, found, Option.filter_some, kept, Bool.and_false]
    rfl
  · intro name value other found expects
    rw [lookup_withoutNull unique, Option.filter_eq_some_iff] at found
    have equal := (values name other expects).2
    rw [pyGet, found.1, Option.getD_some] at equal
    exact equal

/-- Where the values under all other keys are equal already, and the changed one is. -/
theorem pyEq_changeField (unique : SingleValued fields)
    (known : ∀ field ∈ fields, (lookup field.1 expected).isSome = true)
    (present : ∀ field ∈ expected, (lookup field.1 fields).isSome = true)
    (others : ∀ name value, lookup name expected = some value → name ≠ key →
      pyEq (pyGet name fields) value = true)
    (changed : ∀ value, lookup key expected = some value →
      pyEq (change (pyGet key fields)) value = true) :
    pyEq (Gateway.changeField key change (.obj fields)) (.obj expected) = true := by
  apply Json.pyEq_obj (unique_changeField unique)
  · intro field member
    obtain ⟨old, inside, rfl⟩ := List.mem_map.mp member
    exact known old inside
  · intro field member
    rw [lookup_changeField, Option.isSome_map]
    exact present field member
  · intro name value other found same
    rw [lookup_changeField] at found
    obtain ⟨old, here, rfl⟩ := Option.map_eq_some_iff.mp found
    have got : pyGet name fields = old := by rw [pyGet, here, Option.getD_some]
    split
    next at_ =>
      have equal := changed other (at_ ▸ same)
      rw [← at_, got] at equal
      exact equal
    next away =>
      have equal := others name other same away
      rw [got] at equal
      exact equal

end Cleaning

/-! ## The proxy to an origin -/

/-- The list with one object that has this key only. -/
theorem pyEq_singleField {key : String} {fields : List (String × Json)} {inner target : Json}
    (unique : SingleValued fields) (found : lookup key fields = some inner)
    (only : ∀ field ∈ fields, field.1 = key) (equal : pyEq inner target = true) :
    pyEq (.arr [.obj fields]) (.arr [.obj [(key, target)]]) = true := by
  have object : pyEq (.obj fields) (.obj [(key, target)]) = true := by
    apply Json.pyEq_obj unique
    · intro field member
      rw [only field member, lookup, if_pos rfl]
      rfl
    · intro field member
      rw [List.mem_singleton.mp member, found]
      rfl
    · intro name value other here there
      have same := List.mem_singleton.mp (Json.mem_of_lookup there)
      cases same
      rw [found, Option.some.injEq] at here
      rw [← here]
      exact equal
  rw [pyEq, pyEqItems, object, pyEqItems]
  rfl

theorem of_proxyFields {printing : Printing} {proxy : Json} {fields : List (String × Json)}
    (ok : proxyFields printing proxy = .ok fields) :
    proxy = .obj fields ∧ pyEq (pyGet "handler" fields) (.str "reverse_proxy") = true ∧
      ∀ field ∈ fields, field.1 ∈ ["handler", "upstreams", "headers", "transport"] := by
  unfold proxyFields at ok
  split at ok
  next found =>
    rw [refuse_bind, refuse_bind, Bool.not_eq_false'] at ok
    obtain ⟨named, keys, done⟩ := ok
    cases done
    refine ⟨rfl, named, fun field member => ?_⟩
    have known := List.any_eq_false.mp keys field member
    rwa [Bool.not_eq_true, Bool.not_eq_false', List.contains_iff_mem] at known
  next => cases ok

theorem of_originHost {printing : Printing} {upstreams : List (String × String)} {dial : Json}
    {name host : String} (ok : originHost printing upstreams dial = .ok (name, host)) :
    dial = .str name ∧ upstreams.lookup name = some host := by
  unfold originHost at ok
  split at ok
  next => cases ok
  next =>
    split at ok
    next text =>
      split at ok
      next there found =>
        cases ok
        exact ⟨rfl, found⟩
      next => cases ok
    next => cases ok

/-- What `_origin_proxy` builds, for one of the two modes of the header and with or without TLS. -/
theorem of_validateProxy {fields : List (String × Json)} (dial : String) {host : String} {port : Int}
    (unique : SingleValued fields) (named : pyEq (pyGet "handler" fields) (.str "reverse_proxy") = true)
    (keys : ∀ field ∈ fields, field.1 ∈ ["handler", "upstreams", "headers", "transport"])
    (upstreams : pyEq (pyGet "upstreams" fields) (.arr [.obj [("dial", .str dial)]]) = true)
    (ok : validateProxy fields host port = .ok ()) :
    ∃ tls mode, (mode = "customer" ∨ mode = "origin") ∧
      ∀ group : RouteGroup, group.origin = dial → group.originHost = host → group.originPort = port →
        group.originTls = tls → group.hostHeader = mode →
        pyEq (withoutNull "transport" (.obj fields)) (originProxy group) = true := by
  rw [validateProxy, refuse_bind, refuse_ok] at ok
  obtain ⟨headers, transport⟩ := ok
  rw [Bool.and_eq_false_iff, Bool.not_eq_false', Bool.not_eq_false'] at headers
  rw [Bool.and_eq_false_iff, Bool.not_eq_false', Bool.not_eq_false'] at transport
  obtain ⟨mode, either, sent⟩ : ∃ mode, (mode = "customer" ∨ mode = "origin") ∧
      pyEq (pyGet "headers" fields) (originHeaders (if mode = "origin" then
        originHostValue host port (!isNull (pyGet "transport" fields))
        else placeholder "http.request.host")) = true := by
    rcases headers with customer | own
    · exact ⟨"customer", .inl rfl, customer⟩
    · exact ⟨"origin", .inr rfl, own⟩
  refine ⟨!isNull (pyGet "transport" fields), mode, either, ?_⟩
  rintro group rfl rfl rfl tls rfl
  have values : ∀ name value, (name, value) ∈ [("handler", Json.str "reverse_proxy"),
      ("upstreams", .arr [.obj [("dial", .str group.origin)]]),
      ("headers", originHeaders (if group.hostHeader = "origin" then
        originHostValue group.originHost group.originPort group.originTls
        else placeholder "http.request.host"))] →
      value ≠ .null ∧ pyEq (pyGet name fields) value = true := by
    intro name value member
    rcases List.mem_cons.mp member with same | member
    · cases same
      exact ⟨by simp, named⟩
    · rcases List.mem_pair.mp member with same | same
      · cases same
        exact ⟨by simp, upstreams⟩
      · cases same
        rw [tls]
        exact ⟨by simp [originHeaders], sent⟩
  rw [originProxy]
  apply pyEq_withoutNull unique
  · intro field member
    have known := keys field member
    simp only [List.mem_cons, List.not_mem_nil, or_false] at known
    rcases known with name | name | name | name
    · exact .inr (by rw [name]; rfl)
    · exact .inr (by rw [name]; rfl)
    · exact .inr (by rw [name]; rfl)
    · exact .inl name
  · intro missing
    cases null : isNull (pyGet "transport" fields) with
    | true => exact eq_null null
    | false =>
        rw [null, Bool.not_false] at tls
        simp [tls, lookup] at missing
  · intro name value expects
    rcases List.mem_append.mp (Json.mem_of_lookup expects) with first | last
    · exact values name value first
    · cases null : isNull (pyGet "transport" fields) with
      | true =>
          rw [null, Bool.not_true] at tls
          simp [tls] at last
      | false =>
          rw [null] at tls transport
          rw [tls, Bool.not_false, if_pos rfl, List.mem_singleton] at last
          cases last
          exact ⟨by simp [originTransport], transport.resolve_left (by decide)⟩

/-! ## Application routes -/

/-- Nothing is left out of what equals a dictionary without this key. -/
theorem withoutNull_of_pyEq {key : String} {value : Json} {expected : List (String × Json)}
    (equal : pyEq value (.obj expected) = true) (absent : lookup key expected = none) :
    withoutNull key value = value := by
  obtain ⟨fields, rfl⟩ := obj_of_pyEq equal
  rw [withoutNull, Json.obj.injEq, List.filter_eq_self]
  intro field member
  obtain ⟨other, found, -⟩ := (Json.pyEq_obj_iff.mp equal).1 field member
  have different : field.1 ≠ key := by
    intro same
    rw [same, absent] at found
    cases found
  rw [beq_eq_false_iff_ne.mpr different]
  rfl

theorem rateLimitHandler_shape {routeId : String} {perMinute perSecond : Option Int} {built : Json}
    (limited : rateLimitHandler routeId perMinute perSecond = some built) :
    ∃ zones, built = .obj [("handler", .str "rate_limit"), ("rate_limits", .obj zones)] := by
  unfold rateLimitHandler at limited
  dsimp only at limited
  split at limited
  next => cases limited
  next =>
    cases limited
    exact ⟨_, rfl⟩

/-- The handlers before the proxy, as they are. -/
theorem of_standardHandlers {printing : Printing} {routeId : String} {handle strip assert_ proxy : Json}
    (distinct : handle.distinct = true)
    (ok : standardHandlers printing routeId handle = .ok (strip, assert_, proxy)) :
    ∃ (limits : List Json) (perMinute perSecond : Option Int),
      handle = .arr (limits ++ [strip, assert_, proxy]) ∧
      (∀ rate ∈ perMinute, 1 ≤ rate ∧ rate ≤ maxRate) ∧
      (∀ rate ∈ perSecond, 1 ≤ rate ∧ rate ≤ maxRate) ∧
      limits.map (withoutNull "transport") = limits ∧
      pyEqItems limits (rateLimitHandler routeId perMinute perSecond).toList = true := by
  unfold standardHandlers at ok
  split at ok
  next limit first second third =>
    rw [bind_ok] at ok
    obtain ⟨_, limited, same⟩ := ok
    cases same
    have inside := Json.proper_of_mem_items distinct limit List.mem_cons_self
    obtain ⟨perMinute, perSecond, built, minute, second, handler, equal⟩ :=
      of_validateRateLimit inside limited
    refine ⟨[limit], perMinute, perSecond, rfl, minute, second, ?_, ?_⟩
    · obtain ⟨zones, rfl⟩ := rateLimitHandler_shape handler
      rw [List.map_singleton, withoutNull_of_pyEq equal rfl]
    · rw [handler, Option.toList_some, pyEqItems, equal, pyEqItems]
      rfl
  next =>
    cases ok
    exact ⟨[], none, none, rfl, by simp, by simp, rfl, rfl⟩
  next => cases ok

/-- A group whose dial and origin name the facts vouch for.  Its hostnames are canonical, and its rates
within the bounds. -/
structure Vouched (tables : NameTables) (upstreams : List (String × String)) (group : RouteGroup) :
    Prop where
  upstream : upstreams.lookup group.origin = some group.originHost
  port : dialPort group.origin = .ok group.originPort
  hostnames_ne_nil : group.hostnames ≠ []
  canonical : ∀ name ∈ group.hostnames, canonicalize tables name false = .ok name
  perMinute : ∀ rate ∈ group.perMinute, 1 ≤ rate ∧ rate ≤ maxRate
  perSecond : ∀ rate ∈ group.perSecond, 1 ≤ rate ∧ rate ≤ maxRate
  mode : group.hostHeader = "customer" ∨ group.hostHeader = "origin"

section Route

variable {tables : NameTables} {printing : Printing} {settings : ConfigSettings}
  {upstreams : List (String × String)} {seen after : List String}

/-- An accepted route is the one that is built for some group. -/
theorem of_validateAppRoute {route : Json} (distinct : route.distinct = true)
    (ok : validateAppRoute tables printing settings upstreams seen route = .ok after) :
    ∃ group, Vouched tables upstreams group ∧ after = seen ++ group.hostnames ∧
      (seen.Nodup → after.Nodup) ∧
      pyEq (cleanedRoute route) (CustomDomain.route group settings) = true := by
  rw [validateAppRoute, bind_ok] at ok
  obtain ⟨named, name, ok⟩ := ok
  rw [bind_ok] at ok
  obtain ⟨matcher, single, ok⟩ := ok
  rw [bind_ok] at ok
  obtain ⟨hosts, listed, ok⟩ := ok
  rw [bind_ok] at ok
  obtain ⟨seen', checked, ok⟩ := ok
  rw [bind_ok] at ok
  obtain ⟨⟨strip, assert_, proxy⟩, handled, ok⟩ := ok
  dsimp only at ok
  rw [refuse_bind, refuse_bind, Bool.not_eq_false', Bool.not_eq_false', bind_ok] at ok
  obtain ⟨stripped, asserted, proxied, proxies, ok⟩ := ok
  rw [bind_ok] at ok
  obtain ⟨dial, dialed, ok⟩ := ok
  rw [bind_ok] at ok
  obtain ⟨⟨dialName, host⟩, known, ok⟩ := ok
  dsimp only at ok
  rw [bind_ok] at ok
  obtain ⟨port, ported, ok⟩ := ok
  rw [bind_ok] at ok
  obtain ⟨_, transported, same⟩ := ok
  cases same
  obtain ⟨slug, fields, rfl, rfl, keys, id, terminal⟩ := of_namedRoute name
  have inside : ∀ {key value}, lookup key fields = some value → value.distinct = true :=
    fun found => Json.proper_of_lookup distinct found
  obtain ⟨matchers, matches_, here, onlyHost⟩ := of_singleField single
  obtain ⟨rfl, nonempty⟩ := of_hostList listed
  obtain ⟨names, rfl, rfl, canonical, nodup⟩ := of_validateHostItems checked
  have handle := inside (of_sameKeys keys "handle" (by decide))
  obtain ⟨limits, perMinute, perSecond, shape, minute, second, kept, limited⟩ :=
    of_standardHandlers handle handled
  obtain ⟨rfl, proxyName, proxyKeys⟩ := of_proxyFields proxies
  obtain ⟨targets, dials, there, onlyDial⟩ := of_singleField dialed
  obtain ⟨rfl, vouched⟩ := of_originHost known
  have matcher := inside (of_sameKeys keys "match" (by decide))
  rw [matches_] at matcher
  rw [shape] at handle
  have proxyDistinct := Json.proper_of_mem_items handle _
    (List.mem_append_right limits (List.mem_cons_of_mem _ (List.mem_cons_of_mem _ List.mem_cons_self)))
  have matcherUnique : SingleValued matchers :=
    unique_of_distinct (Json.proper_of_mem_items matcher _ List.mem_cons_self)
  have proxyUnique : SingleValued _ := unique_of_distinct proxyDistinct
  have targetDistinct := Json.proper_of_lookup proxyDistinct
    (lookup_of_pyGet (by rw [dials]; exact fun same => by cases same))
  rw [dials] at targetDistinct
  have targetUnique : SingleValued targets :=
    unique_of_distinct (Json.proper_of_mem_items targetDistinct _ List.mem_cons_self)
  obtain ⟨tls, mode, either, proxyEqual⟩ := of_validateProxy dialName proxyUnique proxyName
    proxyKeys (by rw [dials]; exact pyEq_singleField targetUnique there onlyDial (pyEq_str.mpr rfl))
    transported
  let group : RouteGroup := {
    applicationSlug := slug
    origin := dialName
    originHost := host
    originTls := tls
    hostnames := names
    perMinute := perMinute
    perSecond := perSecond
    hostHeader := mode
    originPort := port }
  refine ⟨group, ⟨vouched, ported, ?_, canonical, minute, second, either⟩, rfl, nodup, ?_⟩
  · intro none
    exact nonempty (by rw [show names = [] from none]; rfl)
  · apply pyEq_changeField (unique_of_distinct distinct)
    · intro field member
      have known := (sameKeys_iff.mp keys).1 field member
      simp only [List.mem_cons, List.not_mem_nil, or_false] at known
      rcases known with name | name | name | name <;> (rw [name]; rfl)
    · intro field member
      have known : field.1 ∈ ["@id", "match", "handle", "terminal"] := by
        simp only [List.mem_cons, List.not_mem_nil, or_false] at member
        rcases member with rfl | rfl | rfl | rfl <;> simp
      exact (sameKeys_iff.mp keys).2 field.1 known
    · intro key value expects other
      have member := Json.mem_of_lookup expects
      simp only [List.mem_cons, List.not_mem_nil, or_false] at member
      rcases member with same | same | same | same
      · cases same
        rw [id]
        exact pyEq_str.mpr rfl
      · cases same
        rw [matches_]
        exact pyEq_singleField matcherUnique here onlyHost
          (Json.pyEq_refl _ (proper_texts names))
      · cases same
        exact absurd rfl other
      · cases same
        rw [terminal]
        exact Json.pyEq_refl _ rfl
    · intro value expects
      have member := Json.mem_of_lookup expects
      simp only [List.mem_cons, List.not_mem_nil, or_false] at member
      rcases member with same | same | same | same
      · exact absurd (Prod.mk.inj same).1 (by decide)
      · exact absurd (Prod.mk.inj same).1 (by decide)
      · cases same
        rw [shape, changeItems, List.map_append, kept, pyEq]
        apply pyEqItems_append limited
        rw [List.map_cons, List.map_cons, List.map_singleton,
          withoutNull_of_pyEq stripped rfl, withoutNull_of_pyEq asserted rfl, pyEqItems, stripped,
          pyEqItems, asserted, pyEqItems, proxyEqual group rfl rfl rfl rfl rfl, pyEqItems]
        rfl
      · exact absurd (Prod.mk.inj same).1 (by decide)

/-- Accepted routes are those of some groups, and no hostname is in two of them. -/
theorem of_validateAppRoutes {routes : List Json} (distinct : ∀ route ∈ routes, route.distinct = true)
    (ok : validateAppRoutes tables printing settings upstreams seen routes = .ok after) :
    ∃ groups : List RouteGroup, (∀ group ∈ groups, Vouched tables upstreams group) ∧
      after = seen ++ groups.flatMap (·.hostnames) ∧ (seen.Nodup → after.Nodup) ∧
      pyEqItems (routes.map cleanedRoute)
        (groups.map fun group => CustomDomain.route group settings) = true := by
  induction routes generalizing seen with
  | nil =>
      cases ok
      exact ⟨[], by simp, by simp, id, rfl⟩
  | cons route rest ih =>
      rw [validateAppRoutes, bind_ok] at ok
      obtain ⟨between, one, more⟩ := ok
      obtain ⟨group, vouched, rfl, fresh, equal⟩ :=
        of_validateAppRoute (distinct route List.mem_cons_self) one
      obtain ⟨groups, each, rfl, later, all⟩ :=
        ih (fun other member => distinct other (List.mem_cons_of_mem _ member)) more
      refine ⟨group :: groups, ?_, ?_, fun nodup => later (fresh nodup), ?_⟩
      · intro other member
        rcases List.mem_cons.mp member with rfl | inside
        · exact vouched
        · exact each other inside
      · rw [List.flatMap_cons, List.append_assoc]
      · rw [List.map_cons, List.map_cons, pyEqItems, equal, all]
        rfl

end Route

end CustomDomain.Gateway
