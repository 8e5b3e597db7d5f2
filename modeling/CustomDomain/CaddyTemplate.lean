import CustomDomain.JsonEquality
import CustomDomain.PythonText
import Mathlib.Tactic.Common

/-!
# The configuration template of the volume-based deployment

`add_https_domain` and `delete_https_domain` of `app/caddy/saas_template.py`.  Both copy
the dictionary they are given and then edit what it refers to in place.  A dictionary
at the top is therefore a list of references: a copy has the references of the original,
and what an edit leaves behind a reference is seen through every dictionary that has it.

An edit gives the object it leaves along with its result, also where it raises.
-/

namespace CustomDomain.Caddy

open PythonJson PythonText

/-- The exceptions of the two functions. -/
inductive PyError where
  | attributeError
  | typeError
  | keyError
  | valueError
  | domainAlreadyExists
  | domainDoesNotExist
  deriving DecidableEq, Repr

/-! ## Python on JSON values -/

/-- The truth of a value. -/
def truthy : Json → Bool
  | .null => false
  | .bool value => value
  | .int value => value != 0
  | .float (.finite value) => value != 0
  | .float _ => true
  | .str text => !text.isEmpty
  | .arr items => !items.isEmpty
  | .obj fields => !fields.isEmpty

/-- `value.get(key, default)`. -/
def getDefault (key : String) (default : Json) : Json → Except PyError Json
  | .obj fields => .ok ((Json.lookup key fields).getD default)
  | _ => .error .attributeError

/-- What a `for` loop runs over. -/
def iterate : Json → Except PyError (List Json)
  | .arr items => .ok items
  | .obj fields => .ok (fields.map fun field => .str field.1)
  | .str text => .ok (text.toList.map fun character => .str (String.singleton character))
  | _ => .error .typeError

/-- `domain in value`. -/
def contains (domain : String) : Json → Except PyError Bool
  | .arr items => .ok (items.any fun item => Json.pyEq (.str domain) item)
  | .obj fields => .ok (fields.any fun field => field.1 == domain)
  | .str text => .ok (text.toList.tails.any fun tail => domain.toList.isPrefixOf tail)
  | _ => .error .typeError

/-! ## The route of a domain -/

def httpsPort : String := "443"

def reverseProxyHandleTemplate (upstream : String) (disableHttps : Bool) : Json :=
  let upstream := if upstream.toList.contains ':' then upstream else upstream ++ ":" ++ httpsPort
  let transport :=
    if disableHttps then [("protocol", .str "http")]
    else [("protocol", .str "http"), ("tls", .obj [])]
  .obj [
    ("handler", .str "reverse_proxy"),
    ("headers", .obj [("request", .obj [("set", .obj [
      ("Host", .arr [.str "\x7bhttp.reverse_proxy.upstream.host\x7d"]),
      ("X-Real-Host", .arr [.str "\x7bhttp.reverse_proxy.upstream.host\x7d"]),
      ("X-Real-Ip", .arr [.str "\x7bhttp.reverse-proxy.upstream.address\x7d"])])])]),
    ("transport", .obj transport),
    ("upstreams", .arr [.obj [("dial", .str upstream)]])]

/-- The `handle` of `route_template`. -/
def handleTemplate (upstream : String) (disableHttps : Bool) : Json :=
  .arr [.obj [
    ("handler", .str "subroute"),
    ("routes", .arr [.obj [
      ("handle", .arr [reverseProxyHandleTemplate upstream disableHttps])]])]]

def routeTemplate (domain upstream : String) (disableHttps : Bool) : Json :=
  .obj [
    ("handle", handleTemplate upstream disableHttps),
    ("match", .arr [.obj [("host", .arr [.str domain])]]),
    ("terminal", .bool true)]

/-! ## Edits -/

/-- An edit in place: the object it leaves, and what it returns or raises. -/
abbrev Edit (α : Type) := Json → Json × Except PyError α

/-- `child = parent.get(key)`, with a new child put in where there is none or an empty one,
and then an edit of the child. -/
def within (key : String) (default : Json) (edit : Edit Unit) : Edit Unit
  | .obj fields =>
      let child := ((Json.lookup key fields).filter truthy).getD default
      let (edited, result) := edit child
      (.obj (assign key edited fields), result)
  | other => (other, .error .attributeError)

/-- An edit of `parent[key]`. -/
def inside (key : String) (edit : Edit Unit) : Edit Unit
  | .obj fields =>
      match Json.lookup key fields with
      | none => (.obj fields, .error .keyError)
      | some child =>
          let (edited, result) := edit child
          (.obj (assign key edited fields), result)
  | other => (other, .error .typeError)

/-! ## `add_https_domain` -/

/-- Whether one of the matchers names the domain; those after it are not looked at. -/
def matcherHits (domain : String) : List Json → Except PyError Bool
  | [] => .ok false
  | matcher :: rest => do
      let hosts ← getDefault "host" (.arr []) matcher
      if ← contains domain hosts then pure true else matcherHits domain rest

def routeHits (domain : String) (route : Json) : Except PyError Bool := do
  let matchers ← iterate (← getDefault "match" (.arr []) route)
  matcherHits domain matchers

/-- `route["handle"] = handle`. -/
def setHandle (handle : Json) : Json → Json
  | .obj fields => .obj (assign "handle" handle fields)
  | other => other

/-- The loop over the routes: what they become, and whether one has the domain. -/
def replaceHandles (domain : String) (handle : Json) (replace : Bool) :
    List Json → List Json × Except PyError Bool
  | [] => ([], .ok false)
  | route :: rest =>
      match routeHits domain route with
      | .error error => (route :: rest, .error error)
      | .ok true =>
          if replace then
            let (rest, found) := replaceHandles domain handle replace rest
            (setHandle handle route :: rest, found.map fun _ => true)
          else (route :: rest, .error .domainAlreadyExists)
      | .ok false =>
          let (rest, found) := replaceHandles domain handle replace rest
          (route :: rest, found)

def addRoute (domain upstream : String) (replace disableHttps : Bool) : Edit Unit
  | .arr items =>
      match replaceHandles domain (handleTemplate upstream disableHttps) replace items with
      | (items, .error error) => (.arr items, .error error)
      | (items, .ok true) => (.arr items, .ok ())
      | (items, .ok false) =>
          (.arr (items ++ [routeTemplate domain upstream disableHttps]), .ok ())
  -- Neither has a method `get` or `append` to go on with.
  | .obj fields => (.obj fields, .error .attributeError)
  | .str text => (.str text, .error .attributeError)
  | other => (other, .error .typeError)

/-- The edit of a server.  Without `routes` the loop gets a list that nothing refers to. -/
def addToServer (domain upstream : String) (replace disableHttps : Bool) : Edit Unit
  | .obj fields =>
      match Json.lookup "routes" fields with
      | none => (.obj fields, .ok ())
      | some routes =>
          let (edited, result) := addRoute domain upstream replace disableHttps routes
          (.obj (assign "routes" edited fields), result)
  | other => (other, .error .attributeError)

def newServer (port : String) : Json :=
  .obj [("listen", .arr [.str (":" ++ port)]), ("routes", .arr [])]

/-- The edit of the object under `apps`. -/
def addToApps (port domain upstream : String) (replace disableHttps : Bool) : Edit Unit :=
  within "http" (.obj []) (within "servers" (.obj []) (within port (newServer port)
    (addToServer domain upstream replace disableHttps)))

/-! ## `delete_https_domain` -/

/-- `routes.remove(route)`. -/
def removeRoute (route : Json) (routes : List Json) : Except PyError (List Json) :=
  if routes.any fun other => Json.pyEq other route then
    .ok (routes.eraseP fun other => Json.pyEq other route)
  else .error .valueError

/-- The loop over the matchers of a route: the routes that are left, and whether one was
removed. -/
def removeHits (domain : String) (route : Json) :
    List Json → List Json → Bool → List Json × Except PyError Bool
  | [], routes, removed => (routes, .ok removed)
  | matcher :: rest, routes, removed =>
      match getDefault "host" (.arr []) matcher >>= contains domain with
      | .error error => (routes, .error error)
      | .ok false => removeHits domain route rest routes removed
      | .ok true =>
          match removeRoute route routes with
          | .error error => (routes, .error error)
          | .ok left => removeHits domain route rest left true

/-- The loop over a copy of the routes. -/
def removeRoutes (domain : String) :
    List Json → List Json → Bool → List Json × Except PyError Bool
  | [], routes, removed => (routes, .ok removed)
  | route :: rest, routes, removed =>
      match getDefault "match" (.arr []) route >>= iterate with
      | .error error => (routes, .error error)
      | .ok matchers =>
          match removeHits domain route matchers routes removed with
          | (routes, .error error) => (routes, .error error)
          | (routes, .ok removed) => removeRoutes domain rest routes removed

def deleteRoute (domain : String) : Edit Unit
  | .arr items =>
      match removeRoutes domain items items false with
      | (routes, .error error) => (.arr routes, .error error)
      | (routes, .ok false) => (.arr routes, .error .domainDoesNotExist)
      | (routes, .ok true) => (.arr routes, .ok ())
  -- A dictionary can be copied, but its keys have no method `get`.
  | .obj [] => (.obj [], .error .domainDoesNotExist)
  | other => (other, .error .attributeError)

/-- The edit of the object under `apps`. -/
def deleteFromApps (port domain : String) : Edit Unit :=
  inside "http" (inside "servers" (inside port (inside "routes" (deleteRoute domain))))

/-! ## `list_domains` -/

/-- `value[key]`. -/
def item (key : String) : Json → Except PyError Json
  | .obj fields =>
      match Json.lookup key fields with
      | none => .error .keyError
      | some value => .ok value
  | _ => .error .typeError

/-- `template["apps"]["http"]["servers"][port]["routes"]`. -/
def routesAt (port : String) (template : Json) : Except PyError Json :=
  item "apps" template >>= item "http" >>= item "servers" >>= item port >>= item "routes"

/-- The hostnames of a route. -/
def routeHosts (route : Json) : Except PyError (List Json) := do
  let matchers ← iterate (← getDefault "match" (.arr []) route)
  let hosts ← matchers.mapM fun matcher => do
    iterate (← getDefault "host" (.arr []) matcher)
  pure hosts.flatten

/-- The hostnames of the routes, in order; a configuration without routes has none. -/
def listDomains (port : String) (template : Json) : Except PyError (List Json) :=
  match routesAt port template with
  | .error .keyError => .ok []
  | .error error => .error error
  | .ok routes => do
      let routes ← iterate routes
      let hosts ← routes.mapM routeHosts
      pure hosts.flatten

/-! ## What an edit changes -/

section Fields

variable {key : String} {value : Json} {fields : List (String × Json)}

theorem lookup_assign (key : String) (value : Json) (fields : List (String × Json)) :
    Json.lookup key (assign key value fields) = some value := by
  induction fields with
  | nil => simp [assign, Json.lookup]
  | cons field rest ih =>
      obtain ⟨name, old⟩ := field
      rw [assign]
      split_ifs with same
      · rw [Json.lookup, if_pos same]
      · rw [Json.lookup, if_neg same]
        exact ih

/-- A member's own value leaves a dictionary as it is. -/
theorem assign_self (found : Json.lookup key fields = some value) :
    assign key value fields = fields := by
  induction fields with
  | nil => cases found
  | cons field rest ih =>
      obtain ⟨name, old⟩ := field
      rw [Json.lookup] at found
      rw [assign]
      split_ifs at found ⊢ with same
      · rw [Option.some.inj found]
      · rw [ih found]

theorem lookup_assign_ne {other : String} (different : other ≠ key) (value : Json)
    (fields : List (String × Json)) :
    Json.lookup other (assign key value fields) = Json.lookup other fields := by
  induction fields with
  | nil => simp [assign, Json.lookup, Ne.symm different]
  | cons field rest ih =>
      obtain ⟨name, old⟩ := field
      rw [assign]
      split_ifs with same
      · rw [Json.lookup, Json.lookup, same, if_neg (Ne.symm different), if_neg (Ne.symm different)]
      · rw [Json.lookup, Json.lookup, ih]

/-- Only a value that is the same as a member's own leaves a dictionary the same. -/
theorem same_assign_iff : Json.Same (.obj (assign key value fields)) (.obj fields) ↔
    ∃ old, Json.lookup key fields = some old ∧ Json.Same value old := by
  rw [Json.Same.obj_iff]
  constructor
  · rintro ⟨keys, values⟩
    have there := keys key
    rw [lookup_assign] at there
    obtain ⟨old, found⟩ := Option.isSome_iff_exists.mp there.symm
    exact ⟨old, found, values key value old (lookup_assign key value fields) found⟩
  · rintro ⟨old, found, same⟩
    constructor
    · intro other
      by_cases own : other = key
      · rw [own, lookup_assign, found]
        rfl
      · rw [lookup_assign_ne own]
    · intro other one two left right
      by_cases own : other = key
      · rw [own, lookup_assign, Option.some.injEq] at left
        rw [own, found, Option.some.injEq] at right
        rw [← left, ← right]
        exact same
      · rw [lookup_assign_ne own, right, Option.some.injEq] at left
        rw [left]
        exact .refl one

theorem truthy_assign (key : String) (value : Json) (fields : List (String × Json)) :
    truthy (.obj (assign key value fields)) = true := by
  cases fields with
  | nil => rfl
  | cons field rest =>
      obtain ⟨name, old⟩ := field
      rw [assign]
      split_ifs <;> rfl

end Fields

theorem truthy_number {value : Json} {number : PyFloat} (numeric : Json.number value = some number) :
    truthy value = decide (number ≠ .finite 0) := by
  cases value with
  | bool value =>
      cases numeric
      cases value <;> rfl
  | int value =>
      cases numeric
      by_cases zero : value = 0 <;> simp [truthy, zero]
  | float value =>
      cases numeric
      cases number with
      | finite value => by_cases zero : value = 0 <;> simp [truthy, zero]
      | _ => rfl
  | _ => cases numeric

theorem truthy_of_pyEqNumber {first second : Json} (equal : Json.pyEqNumber first second = true) :
    truthy first = truthy second := by
  unfold Json.pyEqNumber at equal
  split at equal
  next one two left right =>
    rw [truthy_number left, truthy_number right]
    cases one <;> cases two <;> simp_all [Json.numberEq]
  next => cases equal

/-- Values that are the same are both true or both false. -/
theorem truthy_same {first second : Json} (same : Json.Same first second) :
    truthy first = truthy second := by
  have lists {first second : List Json} (same : Json.Same (.arr first) (.arr second)) :
      truthy (.arr first) = truthy (.arr second) := by
    have length := (Json.Same.arr_iff.mp same).1
    cases first <;> cases second <;> simp_all [truthy]
  have objects {first second : List (String × Json)} (same : Json.Same (.obj first) (.obj second)) :
      truthy (.obj first) = truthy (.obj second) := by
    have keys := (Json.Same.obj_iff.mp same).1
    cases first with
    | nil =>
        cases second with
        | nil => rfl
        | cons field rest =>
            have there := keys field.1
            simp [Json.lookup] at there
    | cons field rest =>
        cases second with
        | nil =>
            have there := keys field.1
            simp [Json.lookup] at there
        | cons field' rest' => rfl
  cases same with
  | refl => rfl
  | arr length items => exact lists (.arr length items)
  | obj keys values => exact objects (.obj keys values)
  | equal equal =>
      cases first with
      | null => rw [Json.pyEq_null equal]
      | str text =>
          cases second with
          | str other =>
              rw [Json.pyEq, beq_iff_eq] at equal
              rw [equal]
          | _ => simp [Json.pyEq] at equal
      | bool value => exact truthy_of_pyEqNumber (by simpa [Json.pyEq] using equal)
      | int value => exact truthy_of_pyEqNumber (by simpa [Json.pyEq] using equal)
      | float value => exact truthy_of_pyEqNumber (by simpa [Json.pyEq] using equal)
      | arr items =>
          cases second with
          | arr others => exact lists (.equal equal)
          | _ => simp [Json.pyEq] at equal
      | obj fields =>
          obtain ⟨others, rfl⟩ : ∃ others, second = .obj others := by
            cases second with
            | obj others => exact ⟨others, rfl⟩
            | _ => simp [Json.pyEq] at equal
          exact objects (.equal equal)

/-- The member of a value that is a dictionary. -/
def member? (key : String) : Json → Option Json
  | .obj fields => Json.lookup key fields
  | _ => none

/-- The member of a value that is a dictionary, unless it is empty. -/
def child (key : String) (parent : Json) : Option Json := (member? key parent).filter truthy

section Within

variable {key : String} {default parent : Json} {edit : Edit Unit}

/-- An edit that goes through returned where the code went on. -/
theorem within_ok (ok : (within key default edit parent).2 = .ok ()) {inner : Json}
    (found : child key parent = some inner) : (edit inner).2 = .ok () := by
  cases parent with
  | obj fields =>
      have there : (Json.lookup key fields).filter truthy = some inner := found
      simp only [within, there] at ok
      exact ok
  | _ => cases found

/-- A parent stays the same only when the edit leaves a member the same that was there. -/
theorem within_kept_iff (fills : truthy (edit default).1 = true)
    (ok : (within key default edit parent).2 = .ok ()) :
    Json.Same (within key default edit parent).1 parent ↔
      ∃ inner, child key parent = some inner ∧ Json.Same (edit inner).1 inner := by
  cases parent with
  | obj fields =>
      rw [within, same_assign_iff]
      simp only [child, member?]
      cases found : Json.lookup key fields with
      | none => simp
      | some inner =>
          cases full : truthy inner with
          | true => simp [Option.filter, full]
          | false =>
              simp only [Option.filter, full, Bool.false_eq_true, if_false, Option.getD_none,
                Option.some.injEq, reduceCtorEq, false_and, exists_false, iff_false, exists_eq_left']
              intro same
              exact absurd (full.symm.trans ((truthy_same same).symm.trans fills)) Bool.false_ne_true
  | _ => cases ok

theorem item_child {inner : Json} (found : child key parent = some inner) :
    item key parent = .ok inner := by
  cases parent with
  | obj fields =>
      have there : (Json.lookup key fields).filter truthy = some inner := found
      rw [item, (Option.filter_eq_some_iff.mp there).1]
  | _ => cases found

/-- What an edit of a member that was there leaves under the key. -/
theorem item_within {inner : Json} (found : child key parent = some inner) :
    item key (within key default edit parent).1 = .ok (edit inner).1 := by
  cases parent with
  | obj fields =>
      have there : (Json.lookup key fields).filter truthy = some inner := found
      rw [within, there, item, lookup_assign]
      rfl
  | _ => cases found

theorem truthy_within (fields : List (String × Json)) :
    truthy (within key default edit (.obj fields)).1 = true :=
  truthy_assign _ _ _

end Within

/-! ### What is raised -/

/-- The errors that say something about the domain. -/
def PyError.OfDomain (error : PyError) : Prop :=
  error = .domainAlreadyExists ∨ error = .domainDoesNotExist

section Errors

variable {domain key : String} {default value : Json} {error : PyError}

theorem getDefault_error (raised : getDefault key default value = .error error) :
    ¬ error.OfDomain := by
  cases value <;> cases raised <;> simp [PyError.OfDomain]

theorem iterate_error (raised : iterate value = .error error) : ¬ error.OfDomain := by
  cases value <;> cases raised <;> simp [PyError.OfDomain]

theorem contains_error (raised : contains domain value = .error error) : ¬ error.OfDomain := by
  cases value <;> cases raised <;> simp [PyError.OfDomain]

/-- One step raises what the first or the second part raises. -/
theorem bind_error {α β : Type} {first : Except PyError α} {second : α → Except PyError β}
    (before : ∀ error, first = .error error → ¬ error.OfDomain)
    (after : ∀ value error, second value = .error error → ¬ error.OfDomain)
    (raised : first >>= second = .error error) : ¬ error.OfDomain := by
  cases first with
  | error reason =>
      cases raised
      exact before _ rfl
  | ok value => exact after value error raised

theorem hosts_error (raised : getDefault key default value >>= contains domain = .error error) :
    ¬ error.OfDomain :=
  bind_error (fun _ => getDefault_error) (fun _ _ => contains_error) raised

theorem matchers_error (raised : getDefault key default value >>= iterate = .error error) :
    ¬ error.OfDomain :=
  bind_error (fun _ => getDefault_error) (fun _ _ => iterate_error) raised

theorem matcherHits_error {matchers : List Json}
    (raised : matcherHits domain matchers = .error error) : ¬ error.OfDomain := by
  induction matchers generalizing error with
  | nil => cases raised
  | cons matcher rest ih =>
      rw [matcherHits] at raised
      refine bind_error (fun _ => getDefault_error) (fun hosts error raised => ?_) raised
      refine bind_error (fun _ => contains_error) (fun hit error raised => ?_) raised
      cases hit with
      | true => cases raised
      | false => exact ih raised

theorem routeHits_error {route : Json} (raised : routeHits domain route = .error error) :
    ¬ error.OfDomain :=
  bind_error (fun _ => getDefault_error) (fun _ _ raised =>
    bind_error (fun _ => iterate_error) (fun _ _ => matcherHits_error) raised) raised

end Errors

/-! ### Adding -/

section Adding

variable {domain upstream : String} {handle : Json} {replace disableHttps : Bool}

theorem setHandle_same_iff {route : Json} (hits : routeHits domain route = .ok true) :
    Json.Same (setHandle handle route) route ↔
      ∃ old, member? "handle" route = some old ∧ Json.Same handle old := by
  cases route with
  | obj fields => rw [setHandle, same_assign_iff, member?]
  | _ => cases hits

/-- The matchers of a route stay. -/
theorem getDefault_setHandle (default handle route : Json) :
    getDefault "match" default (setHandle handle route) = getDefault "match" default route := by
  cases route with
  | obj fields => rw [setHandle, getDefault, getDefault, lookup_assign_ne (by decide)]
  | _ => rfl

/-- What the loop over the routes does when it ends. -/
theorem replaceHandles_ok {items edited : List Json} {found : Bool}
    (ran : replaceHandles domain handle replace items = (edited, .ok found)) :
    (found = true ↔ ∃ route ∈ items, routeHits domain route = .ok true) ∧
    (Json.Same (.arr edited) (.arr items) ↔ ∀ route ∈ items, routeHits domain route = .ok true →
      ∃ old, member? "handle" route = some old ∧ Json.Same handle old) ∧
    edited.length = items.length := by
  induction items generalizing edited found with
  | nil =>
      cases ran
      simp [Json.Same.refl]
  | cons route rest ih =>
      rw [replaceHandles] at ran
      split at ran
      next => cases ran
      next hits =>
        split_ifs at ran with replaces
        · obtain ⟨later, result, tail⟩ : ∃ later result,
              replaceHandles domain handle replace rest = (later, result) := ⟨_, _, rfl⟩
          rw [tail] at ran
          cases result with
          | error error => cases ran
          | ok flag =>
              cases ran
              obtain ⟨-, same, length⟩ := ih tail
              simp [hits, same, length, Json.Same.cons_iff, setHandle_same_iff hits]
        · cases ran
      next misses =>
        obtain ⟨later, result, tail⟩ : ∃ later result,
            replaceHandles domain handle replace rest = (later, result) := ⟨_, _, rfl⟩
        rw [tail] at ran
        cases ran
        obtain ⟨exists_, same, length⟩ := ih tail
        simp [misses, exists_, same, length, Json.Same.cons_iff, Json.Same.refl]

/-- The routes have the domain, each time with a handle equal to the one it is given. -/
def RoutesKeep (domain : String) (handle : Json) (routes : Json) : Prop :=
  ∃ items, routes = .arr items ∧ (∃ route ∈ items, routeHits domain route = .ok true) ∧
    ∀ route ∈ items, routeHits domain route = .ok true →
      ∃ old, member? "handle" route = some old ∧ handle.pyEq old = true

theorem plain_handleTemplate (upstream : String) (disableHttps : Bool) :
    (handleTemplate upstream disableHttps).plain = true := by
  cases disableHttps <;> rfl

theorem addRoute_kept_iff {routes : Json}
    (ok : (addRoute domain upstream replace disableHttps routes).2 = .ok ()) :
    Json.Same (addRoute domain upstream replace disableHttps routes).1 routes ↔
      RoutesKeep domain (handleTemplate upstream disableHttps) routes := by
  cases routes with
  | arr items =>
      obtain ⟨edited, result, ran⟩ : ∃ edited result, replaceHandles domain
        (handleTemplate upstream disableHttps) replace items = (edited, result) := ⟨_, _, rfl⟩
      rw [addRoute, ran] at ok ⊢
      cases result with
      | error error => cases ok
      | ok found =>
          obtain ⟨hit, same, length⟩ := replaceHandles_ok ran
          cases found with
          | true =>
              simp [RoutesKeep, same, hit.mp rfl, Json.same_iff_of_plain (plain_handleTemplate _ _)]
          | false =>
              have none : ¬ ∃ route ∈ items, routeHits domain route = .ok true :=
                fun some => Bool.false_ne_true (hit.mpr some)
              constructor
              · intro grown
                have lengths := (Json.Same.arr_iff.mp grown).1
                rw [List.length_append, length, List.length_singleton] at lengths
                omega
              · rintro ⟨_, ⟨⟩, some, -⟩
                exact absurd some none
  | _ => cases ok

/-- A server without routes, or with routes that have the domain already. -/
def ServerKeeps (domain : String) (handle : Json) (server : Json) : Prop :=
  ∀ routes, member? "routes" server = some routes → RoutesKeep domain handle routes

theorem addToServer_kept_iff {server : Json}
    (ok : (addToServer domain upstream replace disableHttps server).2 = .ok ()) :
    Json.Same (addToServer domain upstream replace disableHttps server).1 server ↔
      ServerKeeps domain (handleTemplate upstream disableHttps) server := by
  cases server with
  | obj fields =>
      rw [addToServer] at ok ⊢
      simp only [ServerKeeps, member?]
      cases found : Json.lookup "routes" fields with
      | none => simp [Json.Same.refl]
      | some routes =>
          rw [found] at ok
          simp only [same_assign_iff, found, Option.some.injEq, forall_eq', exists_eq_left',
            addRoute_kept_iff ok]
  | _ => cases ok

variable {port : String}

/-- The port has a server, and it keeps its routes. -/
def AppsKeep (port domain : String) (handle apps : Json) : Prop :=
  ∃ http, child "http" apps = some http ∧ ∃ servers, child "servers" http = some servers ∧
    ∃ server, child port servers = some server ∧ ServerKeeps domain handle server

/-- The edit fills in what was missing, so it leaves only a complete object the same. -/
theorem addToApps_kept_iff {apps : Json}
    (ok : (addToApps port domain upstream replace disableHttps apps).2 = .ok ()) :
    Json.Same (addToApps port domain upstream replace disableHttps apps).1 apps ↔
      AppsKeep port domain (handleTemplate upstream disableHttps) apps := by
  have server : truthy (addToServer domain upstream replace disableHttps (newServer port)).1 =
      true := truthy_assign _ _ _
  rw [addToApps, within_kept_iff (truthy_within _) ok]
  refine exists_congr fun http => and_congr_right fun found => ?_
  have ok := within_ok ok found
  rw [within_kept_iff (truthy_within _) ok]
  refine exists_congr fun servers => and_congr_right fun found => ?_
  have ok := within_ok ok found
  rw [within_kept_iff server ok]
  refine exists_congr fun server => and_congr_right fun found => ?_
  exact addToServer_kept_iff (within_ok ok found)

/-- New handles leave the hostnames. -/
theorem replaceHandles_hosts {items edited : List Json} {result : Except PyError Bool}
    (ran : replaceHandles domain handle replace items = (edited, result)) :
    edited.mapM routeHosts = items.mapM routeHosts := by
  have kept (route : Json) : routeHosts (setHandle handle route) = routeHosts route := by
    rw [routeHosts, routeHosts, getDefault_setHandle]
  induction items generalizing edited result with
  | nil =>
      cases ran
      rfl
  | cons route rest ih =>
      obtain ⟨later, found, tail⟩ : ∃ later found,
        replaceHandles domain handle replace rest = (later, found) := ⟨_, _, rfl⟩
      rw [replaceHandles, tail] at ran
      split at ran
      next =>
        cases ran
        rfl
      next =>
        split_ifs at ran
        · cases ran
          rw [List.mapM_cons, List.mapM_cons, kept, ih tail]
        · cases ran
          rfl
      next =>
        cases ran
        rw [List.mapM_cons, List.mapM_cons, ih tail]

/-- The routes with the domain keep their hostnames. -/
theorem addRoute_hosts {items : List Json}
    (ok : (addRoute domain upstream replace disableHttps (.arr items)).2 = .ok ())
    (known : ∃ route ∈ items, routeHits domain route = .ok true) :
    ∃ edited, (addRoute domain upstream replace disableHttps (.arr items)).1 = .arr edited ∧
      edited.mapM routeHosts = items.mapM routeHosts := by
  obtain ⟨edited, result, ran⟩ : ∃ edited result, replaceHandles domain
    (handleTemplate upstream disableHttps) replace items = (edited, result) := ⟨_, _, rfl⟩
  rw [addRoute, ran] at ok ⊢
  cases result with
  | error error => cases ok
  | ok found =>
      cases found with
      | true => exact ⟨edited, rfl, replaceHandles_hosts ran⟩
      | false => exact absurd ((replaceHandles_ok ran).1.mpr known) Bool.false_ne_true

theorem routesAt_eq {template apps http servers server : Json}
    (apps_ : item "apps" template = .ok apps) (http_ : item "http" apps = .ok http)
    (servers_ : item "servers" http = .ok servers) (server_ : item port servers = .ok server) :
    routesAt port template = item "routes" server := by
  simp only [routesAt, bind, Except.bind, apps_, http_, servers_, server_]

/-- A server that keeps its routes keeps their hostnames. -/
theorem addToServer_hosts {server : Json}
    (ok : (addToServer domain upstream replace disableHttps server).2 = .ok ())
    (keeps : ServerKeeps domain handle server) :
    item "routes" (addToServer domain upstream replace disableHttps server).1 =
        item "routes" server ∨
      ∃ edited items, item "routes" (addToServer domain upstream replace disableHttps server).1 =
          .ok (.arr edited) ∧ item "routes" server = .ok (.arr items) ∧
        edited.mapM routeHosts = items.mapM routeHosts := by
  cases server with
  | obj fields =>
      rw [addToServer] at ok ⊢
      cases found : Json.lookup "routes" fields with
      | none => exact .inl rfl
      | some routes =>
          rw [found] at ok
          obtain ⟨items, rfl, known, -⟩ := keeps routes found
          obtain ⟨edited, shape, hosts⟩ := addRoute_hosts ok known
          refine .inr ⟨edited, items, ?_, ?_, hosts⟩
          · rw [item, lookup_assign, shape]
          · rw [item, found]
  | _ => cases ok

/-- Where the addition leaves the object under `apps` the same, it leaves the hostnames. -/
theorem listDomains_kept {apps template edited : Json}
    (ok : (addToApps port domain upstream replace disableHttps apps).2 = .ok ())
    (keeps : AppsKeep port domain handle apps) (before : item "apps" template = .ok apps)
    (after : item "apps" edited =
      .ok (addToApps port domain upstream replace disableHttps apps).1) :
    listDomains port edited = listDomains port template := by
  obtain ⟨http, http_, servers, servers_, server, server_, keeps⟩ := keeps
  have ok := within_ok (within_ok (within_ok ok http_) servers_) server_
  have old : routesAt port template = item "routes" server :=
    routesAt_eq before (item_child http_) (item_child servers_) (item_child server_)
  have new : routesAt port edited =
      item "routes" (addToServer domain upstream replace disableHttps server).1 :=
    routesAt_eq after (item_within http_) (item_within servers_) (item_within server_)
  rcases addToServer_hosts ok keeps with same | ⟨items, others, left, right, hosts⟩
  · rw [listDomains, listDomains, new, old, same]
  · rw [listDomains, listDomains, new, old, left, right]
    change (items.mapM routeHosts >>= fun hosts => pure hosts.flatten) =
      (others.mapM routeHosts >>= fun hosts => pure hosts.flatten)
    rw [hosts]

theorem replaceHandles_error {items edited : List Json} {error : PyError}
    (ran : replaceHandles domain handle true items = (edited, .error error)) :
    ¬ error.OfDomain := by
  induction items generalizing edited error with
  | nil => cases ran
  | cons route rest ih =>
      rw [replaceHandles] at ran
      obtain ⟨later, result, tail⟩ : ∃ later result,
        replaceHandles domain handle true rest = (later, result) := ⟨_, _, rfl⟩
      rw [tail] at ran
      split at ran
      next raised =>
        cases ran
        exact routeHits_error raised
      next =>
        cases result with
        | error reason =>
            cases ran
            exact ih tail
        | ok flag => cases ran
      next =>
        cases ran
        exact ih tail

/-- The edit never says that the domain exists or does not. -/
def Silent (edit : Edit Unit) : Prop :=
  ∀ value error, (edit value).2 = .error error → ¬ error.OfDomain

theorem addRoute_silent (domain upstream : String) (disableHttps : Bool) :
    Silent (addRoute domain upstream true disableHttps) := by
  intro routes error raised
  cases routes with
  | arr items =>
      obtain ⟨edited, result, ran⟩ : ∃ edited result, replaceHandles domain
        (handleTemplate upstream disableHttps) true items = (edited, result) := ⟨_, _, rfl⟩
      rw [addRoute, ran] at raised
      cases result with
      | error reason =>
          cases raised
          exact replaceHandles_error ran
      | ok found => cases found <;> cases raised
  | _ => cases raised; simp [PyError.OfDomain]

theorem addToServer_silent (domain upstream : String) (disableHttps : Bool) :
    Silent (addToServer domain upstream true disableHttps) := by
  intro server error raised
  cases server with
  | obj fields =>
      rw [addToServer] at raised
      split at raised
      next => cases raised
      next routes _ => exact addRoute_silent _ _ _ routes error raised
  | _ => cases raised; simp [PyError.OfDomain]

theorem Silent.within {edit : Edit Unit} (silent : Silent edit) (key : String) (default : Json) :
    Silent (within key default edit) := by
  intro parent error raised
  cases parent with
  | obj fields => exact silent _ error raised
  | _ => cases raised; simp [PyError.OfDomain]

theorem addToApps_silent (port domain upstream : String) (disableHttps : Bool) :
    Silent (addToApps port domain upstream true disableHttps) :=
  (((addToServer_silent domain upstream disableHttps).within _ _).within _ _).within _ _

end Adding

/-! ### Deleting -/

section Deleting

variable {domain : String}

theorem removeRoute_length {route : Json} {routes left : List Json}
    (ok : removeRoute route routes = .ok left) : left.length < routes.length := by
  unfold removeRoute at ok
  split_ifs at ok with there
  cases ok
  obtain ⟨other, member, same⟩ := List.any_eq_true.mp there
  have shorter := List.length_eraseP_add_one (p := fun other => other.pyEq route) member same
  omega

/-- What a loop of removals comes to: nothing, or fewer routes. -/
def Removes (routes : List Json) (removed : Bool) (left : List Json) (flag : Bool) : Prop :=
  (left = routes ∧ flag = removed) ∨ (left.length < routes.length ∧ flag = true)

theorem Removes.trans {routes middle left : List Json} {first second third : Bool}
    (before : Removes routes first middle second) (after : Removes middle second left third) :
    Removes routes first left third := by
  rcases before with ⟨rfl, rfl⟩ | ⟨fewer, rfl⟩
  · exact after
  · rcases after with ⟨rfl, rfl⟩ | ⟨fewer', rfl⟩
    · exact .inr ⟨fewer, rfl⟩
    · exact .inr ⟨fewer'.trans fewer, rfl⟩

theorem removeHits_ok {route : Json} {matchers routes left : List Json} {removed flag : Bool}
    (ran : removeHits domain route matchers routes removed = (left, .ok flag)) :
    Removes routes removed left flag := by
  induction matchers generalizing routes removed with
  | nil =>
      cases ran
      exact .inl ⟨rfl, rfl⟩
  | cons matcher rest ih =>
      rw [removeHits] at ran
      split at ran
      next => cases ran
      next => exact ih ran
      next =>
        split at ran
        next => cases ran
        next fewer removes =>
          exact Removes.trans (.inr ⟨removeRoute_length removes, rfl⟩) (ih ran)

theorem removeRoutes_ok {items routes left : List Json} {removed flag : Bool}
    (ran : removeRoutes domain items routes removed = (left, .ok flag)) :
    Removes routes removed left flag := by
  induction items generalizing routes removed with
  | nil =>
      cases ran
      exact .inl ⟨rfl, rfl⟩
  | cons route rest ih =>
      rw [removeRoutes] at ran
      split at ran
      next => cases ran
      next =>
        split at ran
        next => cases ran
        next hits => exact (removeHits_ok hits).trans (ih ran)

theorem removeRoute_error {route : Json} {routes : List Json} {error : PyError}
    (raised : removeRoute route routes = .error error) : ¬ error.OfDomain := by
  unfold removeRoute at raised
  split_ifs at raised
  cases raised
  simp [PyError.OfDomain]

theorem removeHits_error {route : Json} {matchers routes left : List Json} {removed : Bool}
    {error : PyError}
    (ran : removeHits domain route matchers routes removed = (left, .error error)) :
    ¬ error.OfDomain := by
  induction matchers generalizing routes removed with
  | nil => cases ran
  | cons matcher rest ih =>
      rw [removeHits] at ran
      split at ran
      next raised =>
        cases ran
        exact hosts_error raised
      next => exact ih ran
      next =>
        split at ran
        next raised =>
          cases ran
          exact removeRoute_error raised
        next => exact ih ran

theorem removeRoutes_error {items routes left : List Json} {removed : Bool} {error : PyError}
    (ran : removeRoutes domain items routes removed = (left, .error error)) :
    ¬ error.OfDomain := by
  induction items generalizing routes removed with
  | nil => cases ran
  | cons route rest ih =>
      rw [removeRoutes] at ran
      split at ran
      next raised =>
        cases ran
        exact matchers_error raised
      next =>
        split at ran
        next hits =>
          cases ran
          exact removeHits_error hits
        next => exact ih ran

/-- An edit that changes the object when it returns, and leaves it as it is when it raises
that there is no such domain. -/
def Deletes (edit : Edit Unit) : Prop :=
  ∀ value, ((edit value).2 = .ok () → ¬ Json.Same (edit value).1 value) ∧
    ∀ error, (edit value).2 = .error error → error.OfDomain → (edit value).1 = value

theorem deleteRoute_deletes (domain : String) : Deletes (deleteRoute domain) := by
  intro routes
  have other (same : deleteRoute domain routes = (routes, .error .attributeError)) :
      ((deleteRoute domain routes).2 = .ok () → ¬ Json.Same (deleteRoute domain routes).1 routes) ∧
      ∀ error, (deleteRoute domain routes).2 = .error error → error.OfDomain →
        (deleteRoute domain routes).1 = routes := by
    rw [same]
    exact ⟨nofun, fun _ _ _ => rfl⟩
  cases routes with
  | arr items =>
      obtain ⟨left, result, ran⟩ : ∃ left result,
        removeRoutes domain items items false = (left, result) := ⟨_, _, rfl⟩
      rw [deleteRoute, ran]
      cases result with
      | error error =>
          refine ⟨nofun, ?_⟩
          rintro _ ⟨⟩ ofDomain
          exact absurd ofDomain (removeRoutes_error ran)
      | ok flag =>
          rcases removeRoutes_ok ran with ⟨rfl, rfl⟩ | ⟨fewer, rfl⟩
          · exact ⟨nofun, fun _ _ _ => rfl⟩
          · refine ⟨fun _ same => ?_, nofun⟩
            rw [(Json.Same.arr_iff.mp same).1] at fewer
            exact lt_irrefl _ fewer
  | obj fields =>
      cases fields with
      | nil => exact ⟨nofun, fun _ _ _ => rfl⟩
      | cons field rest => exact other rfl
  | _ => exact other rfl

theorem Deletes.inside {edit : Edit Unit} (deletes : Deletes edit) (key : String) :
    Deletes (inside key edit) := by
  intro parent
  cases parent with
  | obj fields =>
      rw [Caddy.inside]
      cases found : Json.lookup key fields with
      | none => exact ⟨nofun, fun _ _ _ => rfl⟩
      | some value =>
          obtain ⟨changes, keeps⟩ := deletes value
          simp only
          refine ⟨fun ok same => ?_, fun error raised ofDomain => ?_⟩
          · obtain ⟨old, there, same⟩ := same_assign_iff.mp same
            cases found.symm.trans there
            exact changes ok same
          · rw [keeps error raised ofDomain, assign_self found]
  | _ => exact ⟨nofun, fun _ _ _ => rfl⟩

theorem deleteFromApps_deletes (port domain : String) : Deletes (deleteFromApps port domain) :=
  (((deleteRoute_deletes domain).inside "routes").inside port).inside "servers" |>.inside "http"

end Deleting

end CustomDomain.Caddy
