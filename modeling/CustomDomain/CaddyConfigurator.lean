import CustomDomain.CaddyTemplate
import Mathlib.Tactic.Common

/-!
# Updates of the running configuration

`CaddyAPIConfigurator` of `app/caddy/caddy_config.py`: a domain is added to or deleted from
a copy of the saved configuration, the result is sent to Caddy, and the saved configuration
is sent back when Caddy refuses it.
-/

namespace CustomDomain.Caddy

open PythonJson PythonText

/-! ## Dictionaries and what they refer to -/

/-- A value at the top: a dictionary of references, or a value that is no dictionary. -/
inductive Root where
  | dict (entries : List (String × Nat))
  | other (value : Json)

/-- The object behind a reference. -/
def fetch (cells : List Json) (reference : Nat) : Json := cells.getD reference .null

/-- What `json.dumps` is given. -/
def Root.render (cells : List Json) : Root → Json
  | .dict entries => .obj (entries.map fun entry => (entry.1, fetch cells entry.2))
  | .other value => value

/-- Every reference leads to an object. -/
def Root.Bound (root : Root) (cells : List Json) : Prop :=
  ∀ entries, root = .dict entries → ∀ entry ∈ entries, entry.2 < cells.length

/-- `value.copy()`, which dictionaries and lists have: a copy has the same references. -/
def Root.copy : Root → Except PyError Root
  | .dict entries => .ok (.dict entries)
  | .other (.arr items) => .ok (.other (.arr items))
  | .other _ => .error .attributeError

/-- The entries of the dictionary that `add_https_domain` edits. -/
def Root.entries : Root → List (String × Nat)
  | .dict entries => entries
  | .other _ => []

/-- The object that is `apps` of a dictionary, when it is not an empty one. -/
def apps? (cells : List Json) (entries : List (String × Nat)) : Option Nat :=
  (entries.lookup "apps").filter fun reference => truthy (fetch cells reference)

/-- `add_https_domain`: the objects it leaves, and the dictionary it returns. -/
def addHttpsDomain (port domain upstream : String) (replace disableHttps : Bool)
    (cells : List Json) (template : Root) : List Json × Except PyError Root :=
  let edit := addToApps port domain upstream replace disableHttps
  match apps? cells template.entries with
  | some reference =>
      let (edited, result) := edit (fetch cells reference)
      (cells.set reference edited, result.map fun _ => .dict template.entries)
  | none =>
      let (created, result) := edit (.obj [])
      (cells ++ [created],
        result.map fun _ => .dict (assign "apps" cells.length template.entries))

/-- `delete_https_domain`. -/
def deleteHttpsDomain (port domain : String) (cells : List Json) :
    Root → List Json × Except PyError Root
  | .dict entries =>
      match entries.lookup "apps" with
      | none => (cells, .error .keyError)
      | some reference =>
          let (edited, result) := deleteFromApps port domain (fetch cells reference)
          (cells.set reference edited, result.map fun _ => .dict entries)
  | .other _ => (cells, .error .typeError)

/-! ## The configurator -/

/-- What Caddy answers to `/load`: an error status is a refusal, and anything else that goes
wrong with the request is raised. -/
inductive Answer where
  | accepted
  | refused
  | lost
  deriving DecidableEq, Repr

/-- The saved configuration, the objects it refers to, and what was sent to Caddy. -/
structure Configurator where
  cells : List Json
  config : Root
  bound : config.Bound cells
  sent : List Json := []
  httpsPort : String
  disableHttps : Bool

inductive Update where
  | add (domain upstream : String)
  | delete (domain : String)

/-- How an update ends. -/
inductive Ending where
  | returned (done : Bool)
  | raised (error : PyError)
  | lost
  deriving DecidableEq, Repr

namespace Configurator

/-- `self.config` as it stands. -/
def current (self : Configurator) : Json := self.config.render self.cells

/-- What the template function of the update makes of the dictionary. -/
def build (self : Configurator) (update : Update) (template : Root) :
    List Json × Except PyError Root :=
  match update with
  | .add domain upstream =>
      addHttpsDomain self.httpsPort domain upstream true self.disableHttps self.cells template
  | .delete domain => deleteHttpsDomain self.httpsPort domain self.cells template

end Configurator

/-! ## References stay bound -/

theorem Root.Bound.grow {root : Root} {cells later : List Json} (bound : root.Bound cells)
    (grows : cells.length ≤ later.length) : root.Bound later :=
  fun entries same entry member => (bound entries same entry member).trans_le grows

theorem mem_assign {key : String} {value : Nat} {fields : List (String × Nat)}
    {field : String × Nat} (member : field ∈ assign key value fields) :
    field.2 = value ∨ field ∈ fields := by
  induction fields with
  | nil =>
      rw [assign, List.mem_singleton] at member
      exact .inl (congrArg Prod.snd member)
  | cons first rest ih =>
      obtain ⟨name, old⟩ := first
      rw [assign] at member
      split_ifs at member
      · rcases List.mem_cons.mp member with rfl | later
        · exact .inl rfl
        · exact .inr (List.mem_cons_of_mem _ later)
      · rcases List.mem_cons.mp member with rfl | later
        · exact .inr List.mem_cons_self
        · exact (ih later).imp_right (List.mem_cons_of_mem _)

theorem Root.entries_bound {root : Root} {cells : List Json} (bound : root.Bound cells)
    {entry : String × Nat} (member : entry ∈ root.entries) : entry.2 < cells.length := by
  cases root with
  | dict entries => exact bound entries rfl entry member
  | other value => cases member

theorem Except.map_eq_ok {ε α β : Type} {result : Except ε α} {change : α → β} {value : β}
    (ok : result.map change = .ok value) : ∃ first, result = .ok first ∧ change first = value := by
  cases result with
  | error error => cases ok
  | ok first => exact ⟨first, rfl, Except.ok.inj ok⟩

theorem Except.map_eq_error {ε α β : Type} {result : Except ε α} {change : α → β} {error : ε}
    (raised : result.map change = .error error) : result = .error error := by
  cases result with
  | error reason => exact congrArg _ (Except.error.inj raised)
  | ok first => cases raised

namespace Configurator

theorem build_grows (self : Configurator) (update : Update) (template : Root) :
    self.cells.length ≤ (self.build update template).1.length := by
  cases update with
  | add domain upstream =>
      simp only [build, addHttpsDomain]
      split
      next => rw [List.length_set]
      next => rw [List.length_append]; omega
  | delete domain =>
      simp only [build, deleteHttpsDomain]
      split
      next =>
        split
        next => exact le_refl _
        next => rw [List.length_set]
      next => exact le_refl _

theorem build_bound (self : Configurator) {update : Update} {template built : Root}
    (bound : template.Bound self.cells)
    (ok : (self.build update template).2 = .ok built) :
    built.Bound (self.build update template).1 := by
  cases update with
  | add domain upstream =>
      simp only [build, addHttpsDomain] at ok ⊢
      split at ok
      next =>
        dsimp only at ok
        obtain ⟨-, -, rfl⟩ := Except.map_eq_ok ok
        rintro _ ⟨⟩ entry member
        simpa using Root.entries_bound bound member
      next =>
        dsimp only at ok
        obtain ⟨-, -, rfl⟩ := Except.map_eq_ok ok
        rintro _ ⟨⟩ entry member
        rw [List.length_append, List.length_singleton]
        rcases mem_assign member with same | old
        · omega
        · exact Nat.lt_succ_of_lt (Root.entries_bound bound old)
  | delete domain =>
      simp only [build, deleteHttpsDomain] at ok ⊢
      split at ok
      next entries =>
        split at ok
        next => cases ok
        next =>
          obtain ⟨-, -, rfl⟩ := Except.map_eq_ok ok
          rintro _ ⟨⟩ entry member
          simpa using bound _ rfl entry member
      next => cases ok

theorem copy_bound (self : Configurator) {copied : Root} (ok : self.config.copy = .ok copied) :
    copied.Bound self.cells := by
  have bound := self.bound
  cases config : self.config with
  | dict entries =>
      rw [config] at ok bound
      cases ok
      exact bound
  | other value =>
      rw [config] at ok
      cases value with
      | arr items =>
          cases ok
          rintro entries ⟨⟩
      | _ => cases ok

/-- `load_new_config`. -/
def loadNewConfig (self : Configurator) (config : Root) (bound : config.Bound self.cells)
    (answer : Answer) : Configurator :=
  let sent := self.sent ++ [config.render self.cells]
  match answer with
  | .accepted => { self with config := config, bound := bound, sent := sent }
  | _ => { self with sent := sent }

theorem loadNewConfig_cells (self : Configurator) (config : Root)
    (bound : config.Bound self.cells) (answer : Answer) :
    (self.loadNewConfig config bound answer).cells = self.cells := by
  cases answer <;> rfl

theorem loadNewConfig_bound (self : Configurator) {config other : Root}
    (bound : config.Bound self.cells) (answer : Answer) (kept : other.Bound self.cells) :
    other.Bound (self.loadNewConfig config bound answer).cells := by
  rw [loadNewConfig_cells]
  exact kept

/-- The objects that the template function leaves, whatever it returns. -/
def edited (self : Configurator) (update : Update) (template : Root) : Configurator :=
  { self with
    cells := (self.build update template).1
    bound := self.bound.grow (self.build_grows update template) }

/-- `add_domain` and `delete_domain`; Caddy gives the first answer to the new configuration
and the second to the old one, if it is sent back. -/
def apply (self : Configurator) (update : Update) (first second : Answer) :
    Configurator × Ending :=
  match copied : self.config.copy with
  | .error error => (self, .raised error)
  | .ok config =>
      match built : (self.build update config).2 with
      | .error error => (self.edited update config, .raised error)
      | .ok newConfig =>
          let loaded := (self.edited update config).loadNewConfig newConfig
            (self.build_bound (self.copy_bound copied) built) first
          match first with
          | .accepted => (loaded, .returned true)
          | .lost => (loaded, .lost)
          | .refused =>
              let back := loaded.loadNewConfig config
                (loadNewConfig_bound _ _ _
                  ((self.copy_bound copied).grow (self.build_grows update config))) second
              match second with
              | .lost => (back, .lost)
              | _ => (back, .returned false)

/-- The saved configuration equals what it was, and the hostnames it routes are as they were. -/
def AsItWas (self after : Configurator) : Prop :=
  Json.Same after.current self.current ∧
    listDomains self.httpsPort after.current = listDomains self.httpsPort self.current

theorem asItWas_of_eq {self after : Configurator} (same : after.current = self.current) :
    self.AsItWas after := by
  rw [AsItWas, same]
  exact ⟨.refl _, rfl⟩

/-- What may be refused without harm: an addition to a configuration without `apps`, or one
that leaves every object equal to what it was. -/
def Harmless (self : Configurator) : Update → Prop
  | .add domain upstream => ∀ apps, child "apps" self.current = some apps →
      AppsKeep self.httpsPort domain (handleTemplate upstream self.disableHttps) apps
  | .delete _ => False

/-! ### What a copy sees of an edit -/

theorem lookup_render (cells : List Json) (entries : List (String × Nat)) (key : String) :
    Json.lookup key (entries.map fun entry => (entry.1, fetch cells entry.2)) =
      (entries.lookup key).map (fetch cells) := by
  induction entries with
  | nil => rfl
  | cons entry rest ih =>
      obtain ⟨name, reference⟩ := entry
      rw [List.map_cons, Json.lookup, List.lookup_cons, ih]
      by_cases same : name = key
      · simp [same]
      · have differs : (key == name) = false := beq_false_of_ne (Ne.symm same)
        rw [if_neg same, differs]

theorem mem_of_lookup {entries : List (String × Nat)} {key : String} {reference : Nat}
    (found : entries.lookup key = some reference) : (key, reference) ∈ entries := by
  induction entries with
  | nil => cases found
  | cons entry rest ih =>
      obtain ⟨name, first⟩ := entry
      rw [List.lookup_cons] at found
      split at found
      next same =>
        rw [eq_of_beq same, Option.some.inj found]
        exact List.mem_cons_self
      next => exact List.mem_cons_of_mem _ (ih found)

/-- An object that is put behind a reference of the dictionary is seen through it. -/
theorem render_set_iff {cells : List Json} {entries : List (String × Nat)} {key : String}
    {reference : Nat} {value : Json} (bound : reference < cells.length)
    (found : entries.lookup key = some reference) :
    Json.Same ((Root.dict entries).render (cells.set reference value))
        ((Root.dict entries).render cells) ↔
      Json.Same value (fetch cells reference) := by
  have put : fetch (cells.set reference value) reference = value := by simp [fetch, bound]
  rw [Root.render, Root.render, Json.Same.obj_iff]
  constructor
  · rintro ⟨-, values⟩
    refine values key _ _ ?_ ?_
    · rw [lookup_render, found, Option.map_some, put]
    · rw [lookup_render, found, Option.map_some]
  · intro same
    constructor
    · intro other
      rw [lookup_render, lookup_render, Option.isSome_map, Option.isSome_map]
    · intro other one two left right
      rw [lookup_render] at left right
      obtain ⟨cell, there, rfl⟩ := Option.map_eq_some_iff.mp left
      rw [there, Option.map_some, Option.some.injEq] at right
      subst right
      by_cases own : cell = reference
      · rw [own, put]
        exact same
      · have kept : fetch (cells.set reference value) cell = fetch cells cell := by
          simp [fetch, List.getElem?_set_ne (Ne.symm own)]
        rw [kept]
        exact .refl _

/-- The object itself that is put back changes nothing. -/
theorem render_set_self {cells : List Json} {root : Root} {reference : Nat}
    (bound : reference < cells.length) :
    root.render (cells.set reference (fetch cells reference)) = root.render cells := by
  have same : cells.set reference (fetch cells reference) = cells := by
    simp [fetch, bound]
  rw [same]

theorem item_render {cells : List Json} {entries : List (String × Nat)} {key : String}
    {reference : Nat} (found : entries.lookup key = some reference) :
    item key ((Root.dict entries).render cells) = .ok (fetch cells reference) := by
  rw [Root.render, item, lookup_render, found]
  rfl

/-- New objects are not seen. -/
theorem render_append {cells : List Json} {root : Root} (bound : root.Bound cells)
    (created : List Json) : root.render (cells ++ created) = root.render cells := by
  cases root with
  | dict entries =>
      rw [Root.render, Root.render]
      congr 1
      refine List.map_congr_left fun entry member => ?_
      have inside := bound entries rfl entry member
      simp [fetch, List.getElem?_append_left inside]
  | other value => rfl

theorem child_render (cells : List Json) (entries : List (String × Nat)) :
    child "apps" ((Root.dict entries).render cells) = (apps? cells entries).map (fetch cells) := by
  rw [child, Root.render, member?, lookup_render, apps?]
  cases entries.lookup "apps" with
  | none => rfl
  | some reference =>
      rw [Option.map_some]
      cases full : truthy (fetch cells reference) <;> simp [Option.filter, full]

theorem copy_eq {config copied : Root} (ok : config.copy = .ok copied) : copied = config := by
  cases config with
  | dict entries =>
      cases ok
      rfl
  | other value =>
      cases value with
      | arr items =>
          cases ok
          rfl
      | _ => cases ok

/-- After a template function that returned, the copy equals what it was exactly when the update is
harmless. -/
theorem render_built_iff (self : Configurator) (copied : self.config.copy = .ok self.config)
    {update : Update} {built : Root} (ok : (self.build update self.config).2 = .ok built) :
    Json.Same (self.config.render (self.build update self.config).1) self.current ↔
      self.Harmless update := by
  have bound := self.bound
  unfold current
  cases config : self.config with
  | dict entries =>
      rw [config] at ok bound
      cases update with
      | add domain upstream =>
          simp only [build, addHttpsDomain, Root.entries, Harmless, current, config, child_render]
            at ok ⊢
          cases found : apps? self.cells entries with
          | none =>
              rw [render_append bound]
              simp [Json.Same.refl]
          | some reference =>
              obtain ⟨there, -⟩ := Option.filter_eq_some_iff.mp found
              rw [found] at ok
              obtain ⟨⟨⟩, ok, -⟩ := Except.map_eq_ok ok
              rw [render_set_iff (bound entries rfl _ (mem_of_lookup there)) there,
                addToApps_kept_iff ok]
              simp
      | delete domain =>
          simp only [build, deleteHttpsDomain, Harmless, iff_false] at ok ⊢
          cases found : entries.lookup "apps" with
          | none =>
              rw [found] at ok
              cases ok
          | some reference =>
              rw [found] at ok
              obtain ⟨⟨⟩, ok, -⟩ := Except.map_eq_ok ok
              rw [render_set_iff (bound entries rfl _ (mem_of_lookup found)) found]
              exact (deleteFromApps_deletes _ _ _).1 ok
  | other value =>
      rw [config] at ok copied bound
      cases update with
      | add domain upstream =>
          have kept : self.Harmless (.add domain upstream) := by
            intro apps found
            rw [current, config] at found
            cases value with
            | arr items => cases found
            | _ => cases copied
          exact iff_of_true (.refl _) kept
      | delete domain => cases ok

/-- A harmless update leaves the hostnames of the copy. -/
theorem listDomains_built (self : Configurator) {update : Update} {built : Root}
    (ok : (self.build update self.config).2 = .ok built) (harmless : self.Harmless update) :
    listDomains self.httpsPort (self.config.render (self.build update self.config).1) =
      listDomains self.httpsPort self.current := by
  have bound := self.bound
  cases update with
  | delete domain => exact harmless.elim
  | add domain upstream =>
      simp only [build, addHttpsDomain, Harmless, current] at ok harmless ⊢
      cases config : self.config with
      | other value =>
          rw [config] at ok harmless
          rfl
      | dict entries =>
          rw [config] at ok harmless bound
          simp only [Root.entries, child_render] at ok harmless ⊢
          cases found : apps? self.cells entries with
          | none => exact congrArg _ (render_append bound _)
          | some reference =>
              obtain ⟨there, -⟩ := Option.filter_eq_some_iff.mp found
              rw [found] at ok harmless
              obtain ⟨⟨⟩, ok, -⟩ := Except.map_eq_ok ok
              refine listDomains_kept ok (harmless _ rfl) (item_render there) ?_
              rw [item_render there]
              simp [fetch, bound entries rfl _ (mem_of_lookup there)]

/-- After one that found or missed the domain, it is as it was. -/
theorem render_raised (self : Configurator) {update : Update} {error : PyError}
    (raised : (self.build update self.config).2 = .error error) (ofDomain : error.OfDomain) :
    self.config.render (self.build update self.config).1 = self.current := by
  have bound := self.bound
  unfold current
  cases config : self.config with
  | dict entries =>
      rw [config] at raised bound
      cases update with
      | add domain upstream =>
          have silent := addToApps_silent self.httpsPort domain upstream self.disableHttps
          simp only [build, addHttpsDomain] at raised
          split at raised
          next => exact absurd ofDomain (silent _ _ (Except.map_eq_error raised))
          next =>
            dsimp only at raised
            exact absurd ofDomain (silent _ _ (Except.map_eq_error raised))
      | delete domain =>
          simp only [build, deleteHttpsDomain] at raised ⊢
          cases found : entries.lookup "apps" with
          | none => rfl
          | some reference =>
              rw [found] at raised
              have kept := (deleteFromApps_deletes self.httpsPort domain
                (fetch self.cells reference)).2 error (Except.map_eq_error raised) ofDomain
              dsimp only
              rw [kept, render_set_self (bound entries rfl _ (mem_of_lookup found))]
  | other value => rfl

/-! ### Whole updates -/

variable {self : Configurator} {update : Update} {second : Answer}

/-- The template function of the update returns a configuration. -/
def Builds (self : Configurator) (update : Update) : Prop :=
  self.config.copy = .ok self.config ∧ ∃ built, (self.build update self.config).2 = .ok built

/-- The configuration that is loaded back equals the one from before, and it is the saved one
again; and a domain that is found or missed changes nothing. -/
def Recovers (self : Configurator) (update : Update) (first second : Answer) : Prop :=
  (∀ built back, (self.apply update first second).1.sent = self.sent ++ [built, back] →
    Json.Same back self.current ∧ self.AsItWas (self.apply update first second).1) ∧
  ∀ error, (self.apply update first second).2 = .raised error → error.OfDomain →
    self.AsItWas (self.apply update first second).1

variable (second) in
/-- After a refusal the copy is sent, with what the edit left in it. -/
theorem apply_refused (builds : self.Builds update) :
    (∃ built, (self.apply update .refused second).1.sent =
      self.sent ++ [built, self.config.render (self.build update self.config).1]) ∧
    (self.apply update .refused second).1.current =
      self.config.render (self.build update self.config).1 ∧
    ∀ error, (self.apply update .refused second).2 ≠ .raised error := by
  obtain ⟨copied, built, ok⟩ := builds
  unfold apply
  split
  next error failed => cases copied.symm.trans failed
  next config copied' =>
    cases copied.symm.trans copied'
    split
    next error failed => cases ok.symm.trans failed
    next =>
      cases second <;> simp [loadNewConfig, edited, current]

/-- Nothing is loaded back where nothing was refused. -/
theorem apply_sent {first : Answer} (other : ¬ (first = .refused ∧ self.Builds update))
    {built back : Json} :
    (self.apply update first second).1.sent ≠ self.sent ++ [built, back] := by
  unfold apply
  split
  next => simp
  next config copied =>
    split
    next => simp [edited]
    next newConfig ok =>
      cases copy_eq copied
      cases first with
      | accepted => simp [loadNewConfig, edited]
      | lost => simp [loadNewConfig, edited]
      | refused => exact absurd ⟨rfl, copied, newConfig, ok⟩ other

theorem apply_raised {first : Answer} {error : PyError} {after : Configurator}
    (ran : self.apply update first second = (after, .raised error)) (ofDomain : error.OfDomain) :
    after.current = self.current := by
  unfold apply at ran
  split at ran
  next =>
    cases ran
    rfl
  next config copied =>
    cases copy_eq copied
    split at ran
    next failed =>
      cases ran
      exact self.render_raised failed ofDomain
    next => cases first <;> cases second <;> cases ran

/-- Whatever Caddy answers: a refused update is undone exactly when it was an addition to a
configuration without `apps`, or one that left every object equal to what it was. -/
theorem refused_update_iff (self : Configurator) (update : Update) (first second : Answer) :
    self.Recovers update first second ↔
      (first = .refused → self.Builds update → self.Harmless update) := by
  have raises : ∀ error, (self.apply update first second).2 = .raised error → error.OfDomain →
      self.AsItWas (self.apply update first second).1 :=
    fun error raised ofDomain => asItWas_of_eq (apply_raised (Prod.ext rfl raised) ofDomain)
  constructor
  · rintro ⟨recovers, -⟩ rfl builds
    obtain ⟨⟨built, sent⟩, current, -⟩ := apply_refused second builds
    obtain ⟨built', ok⟩ := builds.2
    rw [← self.render_built_iff builds.1 ok]
    exact (recovers _ _ sent).1
  · intro harmless
    refine ⟨fun built back sent => ?_, raises⟩
    by_cases refused : first = .refused ∧ self.Builds update
    · obtain ⟨rfl, builds⟩ := refused
      obtain ⟨⟨built', sent'⟩, current, -⟩ := apply_refused second builds
      obtain ⟨newConfig, ok⟩ := builds.2
      have kept := (self.render_built_iff builds.1 ok).mpr (harmless rfl builds)
      have same := List.append_cancel_left (sent.symm.trans sent')
      simp only [List.cons.injEq, and_true] at same
      have hosts := self.listDomains_built ok (harmless rfl builds)
      rw [same.2, AsItWas, current]
      exact ⟨kept, kept, hosts⟩
    · exact absurd sent (apply_sent refused)

/-- A configurator that holds the template for port 443, without a route. -/
def sampleConfigurator : Configurator where
  cells := [.obj [("http", .obj [("servers", .obj [("443", .obj [
    ("listen", .arr [.str ":443"]),
    ("automatic_https", .obj [("disable", .bool false)]),
    ("routes", .arr [])])])])]]
  config := .dict [("apps", 0)]
  bound := by
    rintro _ ⟨⟩ entry member
    rw [List.mem_singleton.mp member]
    decide
  httpsPort := "443"
  disableHttps := false

/-- Caddy refuses the new route and gets it back with the old configuration. -/
theorem refused_addition_stays :
    ¬ sampleConfigurator.Recovers (.add "forms.example.com" "origin.example.net:443") .refused
      .accepted := by
  rintro ⟨recovers, -⟩
  have before : listDomains "443" sampleConfigurator.current = .ok [] := rfl
  have after : listDomains "443" (sampleConfigurator.apply
      (.add "forms.example.com" "origin.example.net:443") .refused .accepted).1.current =
      .ok [.str "forms.example.com"] := rfl
  obtain ⟨-, -, same⟩ := recovers _ _ rfl
  cases before.symm.trans (same.symm.trans after)

end Configurator

end CustomDomain.Caddy
