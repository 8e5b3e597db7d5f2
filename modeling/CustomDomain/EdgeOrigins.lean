import CustomDomain.GatewayCompleteness
import Mathlib.Data.List.ReduceOption
import Mathlib.Data.String.Basic

/-!
# What the edge is told about the origins

`edge_origins` of `app/v1/internal.py`, the `fetch` of `api_origins_provider` in
`app/edge/gateway.py`, and what the gateway makes of the built configuration with it.
-/

namespace CustomDomain

open PythonText PythonIp PythonJson OriginVerification Gateway

/-! ## The listing -/

/-- `_token_ok`, or `none` where it raises a `TypeError`. -/
def tokenOk (settings : ConfigSettings) (token : Option String) : Option Bool :=
  match settings.edgeToken.filter (· ≠ "") with
  | none => some true
  | some expected =>
      match token.filter (· ≠ "") with
      | none => some false
      | some token => compareDigest token expected

/-- One item of `upstreams`. -/
structure Upstream where
  dial : String
  host : String

/-- What the upstreams are sorted by. -/
def Upstream.key (upstream : Upstream) : String ×ₗ String := toLex (upstream.host, upstream.dial)

/-- The rows of `edge_origins`: the verified active origins of active applications. -/
def offeredOrigins (view : Database) : List VerifiedOrigin :=
  view.origins.filter fun origin =>
    origin.isActive && decide (origin.status = .verified) &&
      view.applications.any fun application =>
        decide (application.id = origin.applicationId) && decide (application.status = .active)

/-- Every address of every offered origin that resolves, with the name of the origin. -/
def offeredUpstreams (network : Network) (allowPrivate : Bool) (view : Database) : List Upstream :=
  ((offeredOrigins view).flatMap fun origin =>
    match resolveDials network allowPrivate origin.host origin.port with
    | .error _ => []
    | .ok dials => dials.map fun dial => ⟨dial, origin.host⟩).mergeSort fun first second =>
      decide (first.key ≤ second.key)

/-- What `edge_origins` answers. -/
inductive OriginsAnswer where
  | forbidden
  | failed
  | listed (upstreams : List Upstream) (edgeNames portalRanges : List String) (publicApi : Bool)
      (operatorRanges : List String)

/-- `edge_origins`. -/
def edgeOrigins (network : Network) (allowPrivate : Bool) (view : Database) (settings : ConfigSettings)
    (trusted : Bool) (token : Option String) : OriginsAnswer :=
  if trusted = false then .forbidden
  else
    match tokenOk settings token with
    | none => .failed
    | some false => .forbidden
    | some true =>
        match settings.portalRanges, settings.operatorRanges with
        | some portal, some operator =>
            .listed (offeredUpstreams network allowPrivate view)
              (portalHosts settings.edgeHostname view) portal settings.publicApi operator
        | _, _ => .failed

/-- `fetch`, or `none` where it raises. -/
def fetchFacts : OriginsAnswer → Option EdgeFacts
  | .listed upstreams edgeNames portalRanges publicApi operatorRanges => some {
      upstreams := upstreams.foldl (fun known upstream => assign upstream.dial upstream.host known) []
      edgeNames := edgeNames
      portalRanges := portalRanges
      publicApi := publicApi
      operatorRanges := operatorRanges }
  | _ => none

/-! ## The name that is kept for a dial -/

theorem lookup_assign_self {α : Type} (key : String) (value : α) (fields : List (String × α)) :
    (assign key value fields).lookup key = some value := by
  induction fields with
  | nil => simp [assign]
  | cons field fields ih =>
      obtain ⟨name, old⟩ := field
      by_cases same : name = key
      · simp [assign, same]
      · rw [assign, if_neg same, List.lookup_cons, beq_false_of_ne (Ne.symm same)]
        exact ih

theorem lookup_assign_other {α : Type} {key other : String} (value : α)
    (fields : List (String × α)) (different : other ≠ key) :
    (assign key value fields).lookup other = fields.lookup other := by
  induction fields with
  | nil => simp [assign, List.lookup_cons, beq_false_of_ne different]
  | cons field fields ih =>
      obtain ⟨name, old⟩ := field
      by_cases same : name = key
      · subst same
        simp [assign, List.lookup_cons, beq_false_of_ne different]
      · rw [assign, if_neg same, List.lookup_cons, List.lookup_cons, ih]

/-- A comprehension keeps the last of the values for a key. -/
theorem lookup_comprehension (upstreams : List Upstream) (known : List (String × String))
    (dial : String) :
    (upstreams.foldl (fun known upstream => assign upstream.dial upstream.host known) known).lookup dial =
      ((upstreams.filter fun upstream => upstream.dial = dial).getLast?.map (·.host)).or
        (known.lookup dial) := by
  induction upstreams generalizing known with
  | nil => simp
  | cons upstream upstreams ih =>
      rw [List.foldl_cons, ih]
      by_cases same : upstream.dial = dial
      · rw [List.filter_cons_of_pos (by simpa using same), List.getLast?_cons, ← same, lookup_assign_self]
        cases (upstreams.filter fun other => other.dial = upstream.dial).getLast? <;> rfl
      · rw [List.filter_cons_of_neg (by simpa using same), lookup_assign_other _ _ (Ne.symm same)]

/-- In the order of the names, that is the greatest name with the dial. -/
theorem lookup_sorted {upstreams : List Upstream}
    (sorted : upstreams.Pairwise fun first second => first.host ≤ second.host) {dial host : String} :
    (upstreams.foldl (fun known upstream => assign upstream.dial upstream.host known) []).lookup dial =
        some host ↔
      (∃ upstream ∈ upstreams, upstream.dial = dial ∧ upstream.host = host) ∧
        ∀ upstream ∈ upstreams, upstream.dial = dial → upstream.host ≤ host := by
  rw [lookup_comprehension, List.lookup_nil, Option.or_none]
  have within := sorted.filter fun upstream => decide (upstream.dial = dial)
  have known : ∀ upstream, upstream ∈ (upstreams.filter fun upstream => upstream.dial = dial) ↔
      upstream ∈ upstreams ∧ upstream.dial = dial := by
    intro upstream
    rw [List.mem_filter, decide_eq_true_eq]
  constructor
  · intro last
    obtain ⟨upstream, found, rfl⟩ := Option.map_eq_some_iff.mp last
    obtain ⟨before, shape⟩ := List.getLast?_eq_some_iff.mp found
    refine ⟨⟨upstream, ?_, ?_, rfl⟩, ?_⟩
    · exact ((known upstream).mp (List.mem_of_getLast? found)).1
    · exact ((known upstream).mp (List.mem_of_getLast? found)).2
    · intro other member same
      have inside := (known other).mpr ⟨member, same⟩
      rw [shape] at within inside
      rcases List.mem_append.mp inside with earlier | here
      · exact (List.pairwise_append.mp within).2.2 other earlier upstream (List.mem_singleton_self _)
      · rw [List.mem_singleton.mp here]
  · intro greatest
    obtain ⟨⟨upstream, member, same, rfl⟩, above⟩ := greatest
    have inside := (known upstream).mpr ⟨member, same⟩
    cases found : (upstreams.filter fun upstream => upstream.dial = dial).getLast? with
    | none =>
        rw [List.getLast?_eq_none_iff.mp found] at inside
        cases inside
    | some last =>
        obtain ⟨before, shape⟩ := List.getLast?_eq_some_iff.mp found
        have lastKnown := (known last).mp (List.mem_of_getLast? found)
        have below : upstream.host ≤ last.host := by
          rw [shape] at within inside
          rcases List.mem_append.mp inside with earlier | here
          · exact (List.pairwise_append.mp within).2.2 upstream earlier last (List.mem_singleton_self _)
          · rw [List.mem_singleton.mp here]
        rw [Option.map_some, le_antisymm (above last lastKnown.1 lastKnown.2) below]

section Listing

variable {network : Network} {allowPrivate : Bool} {view : Database}

theorem offeredUpstreams_sorted :
    (offeredUpstreams network allowPrivate view).Pairwise fun first second =>
      first.host ≤ second.host := by
  have sorted := @List.pairwise_mergeSort Upstream
    (fun first second => decide (first.key ≤ second.key))
    (fun first second third one two => by
      rw [decide_eq_true_eq] at one two ⊢
      exact one.trans two)
    (fun first second => by
      rw [Bool.or_eq_true, decide_eq_true_eq, decide_eq_true_eq]
      exact le_total _ _)
  refine (sorted _).imp fun {first second} before => ?_
  rw [decide_eq_true_eq, Prod.Lex.le_iff] at before
  exact before.elim le_of_lt fun same => same.1.le

theorem mem_offeredUpstreams {dial host : String} :
    ⟨dial, host⟩ ∈ offeredUpstreams network allowPrivate view ↔
      ∃ origin ∈ offeredOrigins view, origin.host = host ∧
        ∃ dials, resolveDials network allowPrivate origin.host origin.port = .ok dials ∧
          dial ∈ dials := by
  rw [offeredUpstreams, List.mem_mergeSort, List.mem_flatMap]
  refine exists_congr fun origin => and_congr_right fun _ => ?_
  cases resolveDials network allowPrivate origin.host origin.port with
  | error failed => simp
  | ok dials => simp [and_comm]

/-- Dials do not depend on the order of the addresses. -/
theorem mem_resolveDials {host : String} {port : Nat} {dial : String} :
    (∃ dials, resolveDials network allowPrivate host port = .ok dials ∧ dial ∈ dials) ↔
      Acceptable allowPrivate (network.lookup host port).addresses ∧
        ∃ address ∈ (network.lookup host port).addresses, dialText port address = dial := by
  by_cases acceptable : Acceptable allowPrivate (network.lookup host port).addresses
  · obtain ⟨addresses, resolved, known⟩ := resolve_acceptable acceptable
    rw [and_iff_right acceptable, resolveDials, resolved]
    constructor
    · intro listed
      obtain ⟨dials, same, member⟩ := listed
      cases same
      obtain ⟨address, inside, shown⟩ := List.mem_map.mp member
      exact ⟨address, (known address).mp inside, shown⟩
    · intro among
      obtain ⟨address, inside, shown⟩ := among
      exact ⟨_, rfl, List.mem_map.mpr ⟨address, (known address).mpr inside, shown⟩⟩
  · obtain ⟨failed, refused⟩ := resolve_unacceptable acceptable
    rw [resolveDials, refused]
    constructor
    · intro listed
      obtain ⟨dials, same, -⟩ := listed
      cases same
    · exact fun both => absurd both.1 acceptable

end Listing

/-! ## The port of a dial -/

theorem decimalValue_digit {character : Char} (digit : character.isDigit = true) :
    decimalValue? character = some (character.toNat - '0'.toNat) := by
  have range : 0x30 ≤ character.toNat ∧ character.toNat < 0x30 + 10 := by
    have bounds := Char.isDigit_iff_toNat.mp digit
    change 48 ≤ character.toNat ∧ character.toNat ≤ 57 at bounds
    omega
  have first : decimalZeros.find? (fun start =>
      decide (start ≤ character.toNat) && decide (character.toNat < start + 10)) = some 0x30 := by
    rw [decimalZeros, List.find?_cons_of_pos]
    simpa using range
  rw [decimalValue?, first]
  rfl

theorem intOfDigits_toString {number : Nat} (small : number < 65536) :
    intOfDigits (toString number) = some number := by
  have digits : ∀ text : List Char, (∀ character ∈ text, character.isDigit = true) →
      text.mapM decimalValue? = some (text.map fun character => character.toNat - '0'.toNat) := by
    intro text
    induction text with
    | nil => exact fun _ => rfl
    | cons character text ih =>
        intro each
        rw [List.mapM_cons, decimalValue_digit (each character List.mem_cons_self),
          ih fun other member => each other (List.mem_cons_of_mem _ member)]
        rfl
  have short : (Nat.toDigits 10 number).length ≤ 5 :=
    (Nat.length_toDigits_le_iff (by decide) (by decide)).mpr (by omega)
  rw [intOfDigits, digits _ (toString_digits number), Option.bind_eq_bind, Option.bind_some,
    Nat.toString_eq_ofList_toDigits, String.toList_ofList, List.length_map,
    if_pos (short.trans (by decide)), List.foldl_map]
  exact congrArg some Nat.ofDigitChars_ten_toDigits

theorem intOfText_toString {number : Nat} (small : number < 65536) :
    intOfText (toString number) = some (number : Int) := by
  have digits := toString_digits number
  have other : ∀ character : Char, character.isDigit = false → character ∉ (toString number).toList := by
    intro character none inside
    rw [digits character inside] at none
    cases none
  have clean : strip (toString number) = toString number := by
    apply strip_of_none
    intro character member
    have bounds := Char.isDigit_iff_toNat.mp (digits character member)
    change 48 ≤ character.toNat ∧ character.toNat ≤ 57 at bounds
    simp only [isSpace, Bool.or_eq_false_iff, Bool.and_eq_false_iff, decide_eq_false_iff_not,
      beq_eq_false_iff_ne]
    omega
  have whole : (toString number).toList.splitOn '_' = [(toString number).toList] :=
    List.splitOn_eq_singleton (other '_' (by decide))
  have parsed := intOfDigits_toString small
  have nonempty : [(toString number).toList].any List.isEmpty = false := by simp
  rw [intOfText, clean]
  dsimp only
  split
  next shape =>
    exact absurd (shape ▸ List.mem_cons_self) (other '-' (by decide))
  next shape =>
    exact absurd (shape ▸ List.mem_cons_self) (other '+' (by decide))
  next =>
    rw [whole, nonempty, if_neg (by decide), List.flatten_singleton, String.ofList_toList, parsed]
    rfl

/-- The port of a dial is the one it was made with. -/
theorem dialPort_dialText {port : Nat} (small : port < 65536) (address : SocketAddress) :
    dialPort (dialText port address) = .ok (port : Int) := by
  have digits : ':' ∉ (toString port).toList := by
    intro inside
    cases (toString_digits port ':' inside : false = true)
  have last : ∃ first, dialText port address = first ++ String.singleton ':' ++ toString port := by
    unfold dialText
    split
    next =>
      refine ⟨"[" ++ address.text ++ "]", ?_⟩
      apply String.toList_injective
      simp
    next => exact ⟨address.text, rfl⟩
  obtain ⟨first, shape⟩ := last
  rw [dialPort, shape, rsplitOnce_append digits]
  dsimp only
  rw [intOfText_toString small]

/-! ## The groups of the rows -/

section Groups

variable {network : Network} {allowPrivate : Bool} {view : Database} {environment : Environment}

/-- The group of an application, by what it is made of. -/
def groupOf (view : Database) (application : Application) (origin : VerifiedOrigin) (dial host : String) :
    RouteGroup where
  applicationSlug := application.slug
  origin := dial
  originHost := host
  originTls := origin.scheme = .https
  hostnames := routedHostnames view application
  perMinute := application.rateLimitPerMinute
  perSecond := application.rateLimitPerSecond
  hostHeader := origin.hostHeader.value
  originPort := origin.port

theorem routeGroup_of {application : Application} {origin : VerifiedOrigin} {dial host : String}
    (serving : servingOrigin view application = some origin)
    (some_ : routedHostnames view application ≠ [])
    (pinned : pinnedDial network allowPrivate origin.host origin.port = .ok (dial, host)) :
    routeGroup network allowPrivate view application =
      some (some (groupOf view application origin dial host)) := by
  unfold routeGroup
  rw [serving]
  dsimp only
  rw [if_neg some_, pinned]
  rfl

theorem routeGroup_some {application : Application} {group : RouteGroup}
    (found : routeGroup network allowPrivate view application = some (some group)) :
    ∃ origin dial host, servingOrigin view application = some origin ∧
      routedHostnames view application ≠ [] ∧
      pinnedDial network allowPrivate origin.host origin.port = .ok (dial, host) ∧
      group = groupOf view application origin dial host := by
  unfold routeGroup at found
  split at found
  next => cases found
  next origin serving =>
    dsimp only at found
    split at found
    next => cases found
    next some_ =>
      split at found
      next => cases found
      next => cases found
      next dial host pinned =>
        cases found
        exact ⟨origin, dial, host, serving, some_, pinned, rfl⟩

theorem mem_of_mapM {α β : Type} {f : α → Option β} {items : List α} {found : List β}
    (mapped : items.mapM f = some found) (value : β) :
    value ∈ found ↔ ∃ item ∈ items, f item = some value := by
  induction items generalizing found with
  | nil =>
      cases mapped
      simp
  | cons item items ih =>
      rw [List.mapM_cons, Option.bind_eq_bind, Option.bind_eq_some_iff] at mapped
      obtain ⟨here, one, mapped⟩ := mapped
      rw [Option.bind_eq_bind, Option.bind_eq_some_iff] at mapped
      obtain ⟨rest, more, done⟩ := mapped
      cases done
      rw [List.mem_cons, ih more, List.exists_mem_cons_iff, one, Option.some.injEq, eq_comm]

theorem mem_routedHostnames {application : Application} {name : String} :
    name ∈ routedHostnames view application ↔ ∃ domain ∈ view.domains,
      (domain.applicationId = application.id ∧ domain.isLive = true) ∧
        domain.status ∈ routableStatuses ∧
        routable ⟨domain, view.application? domain.applicationId⟩ = true ∧ domain.hostname = name := by
  rw [routedHostnames, List.mem_map]
  refine exists_congr fun domain => ?_
  rw [List.mem_filter, List.mem_mergeSort, List.mem_filter, Bool.and_eq_true, Bool.and_eq_true,
    decide_eq_true_eq, decide_eq_true_eq]
  simp only [and_assoc]

/-- A hostname is routed once in an application. -/
theorem routedHostnames_nodup (consistent : view.Consistent environment) (application : Application) :
    (routedHostnames view application).Nodup := by
  have ids : (view.domains.map (·.id)).Nodup := consistent.keyed
  have rows : view.domains.Nodup := List.Nodup.of_map _ ids
  unfold routedHostnames
  dsimp only
  apply List.Nodup.map_on
  · intro first one second two same
    rw [List.mem_filter, List.mem_mergeSort, List.mem_filter, Bool.and_eq_true, Bool.and_eq_true] at one two
    exact List.inj_on_of_nodup_map ids one.1.1 two.1.1
      (consistent.single first one.1.1 second two.1.1 one.1.2.1.2 two.1.2.1.2 same)
  · exact List.Nodup.filter _ ((List.mergeSort_perm _ _).nodup_iff.mpr (rows.filter _))

/-- No hostname is in two groups. -/
theorem groups_nodup (consistent : view.Consistent environment) {applications : List Application}
    {found : List (Option RouteGroup)} (keyed : (applications.map (·.id)).Nodup)
    (mapped : applications.mapM (routeGroup network allowPrivate view) = some found) :
    (found.reduceOption.flatMap (·.hostnames)).Nodup ∧
      ∀ name ∈ found.reduceOption.flatMap (·.hostnames),
        ∃ application ∈ applications, name ∈ routedHostnames view application := by
  induction applications generalizing found with
  | nil =>
      cases mapped
      simp
  | cons application applications ih =>
      rw [List.mapM_cons, Option.bind_eq_bind, Option.bind_eq_some_iff] at mapped
      obtain ⟨here, one, mapped⟩ := mapped
      rw [Option.bind_eq_bind, Option.bind_eq_some_iff] at mapped
      obtain ⟨rest, more, done⟩ := mapped
      cases done
      rw [List.map_cons, List.nodup_cons] at keyed
      obtain ⟨fresh, later⟩ := ih keyed.2 more
      cases here with
      | none =>
          rw [List.reduceOption_cons_of_none]
          exact ⟨fresh, fun name member =>
            (later name member).imp fun _ both => ⟨List.mem_cons_of_mem _ both.1, both.2⟩⟩
      | some group =>
          obtain ⟨origin, dial, host, -, -, -, rfl⟩ := routeGroup_some one
          rw [List.reduceOption_cons_of_some, List.flatMap_cons]
          constructor
          · refine List.nodup_append.mpr ⟨routedHostnames_nodup consistent application, fresh, ?_⟩
            intro name inside other member same
            subst same
            obtain ⟨owner, known, among⟩ := later name member
            obtain ⟨first, one, ⟨owned, live⟩, -, -, named⟩ := mem_routedHostnames.mp inside
            obtain ⟨second, two, ⟨owned', live'⟩, -, -, named'⟩ := mem_routedHostnames.mp among
            have single := consistent.single first one second two live live' (named.trans named'.symm)
            have row := List.inj_on_of_nodup_map consistent.keyed one two single
            rw [row, owned'] at owned
            exact keyed.1 (owned ▸ List.mem_map_of_mem known)
          · intro name member
            rcases List.mem_append.mp member with inside | among
            · exact ⟨application, List.mem_cons_self, inside⟩
            · exact (later name among).imp fun _ both => ⟨List.mem_cons_of_mem _ both.1, both.2⟩

theorem reduceOption_mem {found : List (Option RouteGroup)} {group : RouteGroup} :
    group ∈ found.reduceOption ↔ some group ∈ found := by
  simp [List.reduceOption]

theorem mem_serveableRouteGroups {groups : List RouteGroup}
    (listed : serveableRouteGroups network allowPrivate view = some groups) (group : RouteGroup) :
    group ∈ groups ↔ ∃ application ∈ view.applications, application.status = .active ∧
      routeGroup network allowPrivate view application = some (some group) := by
  rw [serveableRouteGroups, Option.map_eq_some_iff] at listed
  obtain ⟨found, mapped, rfl⟩ := listed
  rw [reduceOption_mem, mem_of_mapM mapped]
  simp only [activeApplications, List.mem_mergeSort, List.mem_filter, decide_eq_true_eq, and_assoc]

theorem serveableRouteGroups_nodup (consistent : view.Consistent environment)
    {groups : List RouteGroup}
    (listed : serveableRouteGroups network allowPrivate view = some groups) :
    (groups.flatMap (·.hostnames)).Nodup := by
  rw [serveableRouteGroups, Option.map_eq_some_iff] at listed
  obtain ⟨found, mapped, rfl⟩ := listed
  refine (groups_nodup consistent ?_ mapped).1
  have order := List.mergeSort_perm (view.applications.filter fun application =>
    decide (application.status = .active)) fun first second => decide (first.slug ≤ second.slug)
  refine (order.map Application.id).nodup_iff.mpr ?_
  exact consistent.applicationsKeyed.sublist (List.filter_sublist.map _)

theorem servingOrigin_offered {application : Application} {origin : VerifiedOrigin}
    (stored : application ∈ view.applications) (active : application.status = .active)
    (serving : servingOrigin view application = some origin) : origin ∈ offeredOrigins view := by
  rw [servingOrigin, Option.filter_eq_some_iff] at serving
  have owns := List.find?_some serving.1
  rw [Bool.and_eq_true, decide_eq_true_eq] at owns
  rw [offeredOrigins, List.mem_filter, Bool.and_eq_true, Bool.and_eq_true, decide_eq_true_eq]
  refine ⟨List.mem_of_find?_eq_some serving.1, ⟨owns.2, by simpa using serving.2⟩, ?_⟩
  rw [List.any_eq_true]
  exact ⟨application, stored, by simp [owns.1, active]⟩

/-- A group of consistent rows has what the gateway asks of a group. -/
theorem wellFormed_group (consistent : view.Consistent environment) (stable : environment.tables.Stable)
    (printed : PrintedOrigins network view) {application : Application} {group : RouteGroup}
    (stored : application ∈ view.applications)
    (found : routeGroup network allowPrivate view application = some (some group)) :
    WellFormed environment.tables group := by
  obtain ⟨origin, dial, host, serving, some_, pinned, rfl⟩ := routeGroup_some found
  have known := servingOrigin_mem serving
  have valid := consistent.origin origin known
  have row := consistent.application application stored
  have acceptable : Acceptable allowPrivate (network.lookup origin.host origin.port).addresses := by
    by_contra unacceptable
    obtain ⟨failed, refused⟩ := pinnedDial_unacceptable unacceptable
    rw [refused] at pinned
    cases pinned
  obtain ⟨address, -, shown, -⟩ := pinnedDial_acceptable (printed origin known) acceptable
  rw [pinned] at shown
  cases shown
  constructor
  case hostnames_ne_nil => exact some_
  case canonical =>
    intro name member
    obtain ⟨domain, inside, -, -, -, rfl⟩ := mem_routedHostnames.mp member
    obtain ⟨raw, accepted⟩ := consistent.hostname domain inside
    exact canonicalize_stable stable accepted
  case perMinute => exact row.perMinute
  case perSecond => exact row.perSecond
  case port => exact dialPort_dialText valid.port.2 address
  case named =>
    obtain ⟨raw, accepted⟩ := valid.host
    intro same
    change origin.host = placeholder "http.request.host" at same
    have allowed := (canonicalText_stable stable (canonicalize_ok accepted).1).2.2 '\x7b'
    rw [same] at allowed
    revert allowed
    decide

end Groups

/-! ## When the gateway accepts what is built -/

section Accepted

variable {first second : Network} {allowPrivate : Bool} {view : Database} {environment : Environment}

/-- Another origin, with a greater name, that the dial leads to as well. -/
def Contested (network : Network) (allowPrivate : Bool) (view : Database) (host dial : String) : Prop :=
  ∃ other ∈ offeredOrigins view, host < other.host ∧
    ∃ dials, resolveDials network allowPrivate other.host other.port = .ok dials ∧ dial ∈ dials

/-- Every routed origin whose dial another offered origin of a greater name has as well is served
without TLS under the customer's name. -/
def Uncontested (network : Network) (allowPrivate : Bool) (view : Database) : Prop :=
  ∀ application ∈ view.applications, application.status = .active →
    routedHostnames view application ≠ [] → ∀ own, servingOrigin view application = some own →
      ∀ dial kept, pinnedDial network allowPrivate own.host own.port = .ok (dial, kept) →
        Contested network allowPrivate view own.host dial →
          own.scheme = .http ∧ own.hostHeader = .customer

/-- Resolvers that give every origin the same addresses offer the same upstreams. -/
theorem mem_offeredUpstreams_same (same : SameOrigins first second view) {dial host : String} :
    ⟨dial, host⟩ ∈ offeredUpstreams second allowPrivate view ↔
      ∃ origin ∈ offeredOrigins view, origin.host = host ∧
        ∃ dials, resolveDials first allowPrivate origin.host origin.port = .ok dials ∧
          dial ∈ dials := by
  rw [mem_offeredUpstreams]
  refine exists_congr fun origin => and_congr_right fun offered => and_congr_right fun _ => ?_
  have answers := same origin (List.mem_filter.mp offered).1
  rw [mem_resolveDials, mem_resolveDials]
  constructor
  · intro dialed
    obtain ⟨acceptable, address, inside, shown⟩ := dialed
    exact ⟨acceptable.transfer answers.symm, address, (answers address).mpr inside, shown⟩
  · intro dialed
    obtain ⟨acceptable, address, inside, shown⟩ := dialed
    exact ⟨acceptable.transfer answers, address, (answers address).mp inside, shown⟩

theorem resolveDials_of_pinnedDial {host kept dial : String} {port : Nat}
    (printed : Printed (first.lookup host port).addresses)
    (pinned : pinnedDial first allowPrivate host port = .ok (dial, kept)) :
    kept = host ∧
      ∃ dials, resolveDials first allowPrivate host port = .ok dials ∧ dial ∈ dials := by
  by_cases acceptable : Acceptable allowPrivate (first.lookup host port).addresses
  · obtain ⟨address, inside, shown, -⟩ := pinnedDial_acceptable printed acceptable
    rw [pinned] at shown
    cases shown
    exact ⟨rfl, mem_resolveDials.mpr ⟨acceptable, address, inside, rfl⟩⟩
  · obtain ⟨failed, refused⟩ := pinnedDial_unacceptable acceptable
    rw [refused] at pinned
    cases pinned

/-- The facts that are fetched, by what they are made of. -/
theorem of_fetchFacts {settings : ConfigSettings} {trusted : Bool} {token : Option String}
    {facts : EdgeFacts}
    (fetched : fetchFacts (edgeOrigins second allowPrivate view settings trusted token) = some facts) :
    ∃ portal operator, settings.portalRanges = some portal ∧ settings.operatorRanges = some operator ∧
      facts = {
        upstreams := (offeredUpstreams second allowPrivate view).foldl
          (fun known upstream => assign upstream.dial upstream.host known) []
        edgeNames := portalHosts settings.edgeHostname view
        portalRanges := portal
        publicApi := settings.publicApi
        operatorRanges := operator } := by
  unfold edgeOrigins at fetched
  split at fetched
  next => cases fetched
  next =>
    split at fetched
    next => cases fetched
    next => cases fetched
    next =>
      split at fetched
      next portal operator portals operators =>
        cases fetched
        exact ⟨portal, operator, portals, operators, rfl⟩
      next => cases fetched

theorem portalHosts_sorted (edgeHostname : Option String) (view : Database) :
    Sorted (portalHosts edgeHostname view) := by
  unfold portalHosts
  dsimp only
  refine (List.pairwise_mergeSort (fun first second third one two => ?_) (fun first second => ?_) _).imp
    fun {one two} before => by simpa using before
  · rw [decide_eq_true_eq] at one two ⊢
    exact one.trans two
  · rw [Bool.or_eq_true, decide_eq_true_eq, decide_eq_true_eq]
    exact le_total _ _

theorem portalRoutes_built {settings : ConfigSettings} {hosts ranges_ : List String} {portal : List Json}
    (known : settings.portalRanges = some ranges_)
    (built : (if settings.portalAllowedIps ≠ [] then portalRoutes settings hosts else some []) =
      some portal) :
    portal = portalRoutesFor hosts ranges_ settings.assertUpstream := by
  by_cases exposed : settings.portalAllowedIps = []
  · rw [if_neg (not_not_intro exposed), Option.some.injEq] at built
    rw [ConfigSettings.portalRanges, exposed] at known
    cases known
    rw [portalRoutesFor, allowlistedRoutesFor, if_pos (.inl rfl), built]
  · rw [if_pos exposed, portalRoutes, known] at built
    cases built
    rfl

theorem lookup_isSome {upstreams : List Upstream} {upstream : Upstream} (member : upstream ∈ upstreams) :
    ∃ host, (upstreams.foldl (fun known upstream => assign upstream.dial upstream.host known) []).lookup
      upstream.dial = some host := by
  rw [lookup_comprehension]
  cases found : (upstreams.filter fun other => other.dial = upstream.dial).getLast? with
  | none =>
      have inside : upstream ∈ upstreams.filter fun other => other.dial = upstream.dial := by
        rw [List.mem_filter, decide_eq_true_eq]
        exact ⟨member, rfl⟩
      rw [List.getLast?_eq_none_iff.mp found] at inside
      cases inside
  | some last => exact ⟨last.host, rfl⟩

/-- The origin of a group is offered by a name that serves for it, unless its dial is contested. -/
theorem offered_iff (printed : PrintedOrigins first view) (same : SameOrigins first second view)
    {application : Application} {own : VerifiedOrigin} {dial kept : String}
    (stored : application ∈ view.applications) (active : application.status = .active)
    (serving : servingOrigin view application = some own)
    (pinned : pinnedDial first allowPrivate own.host own.port = .ok (dial, kept)) :
    Offered ((offeredUpstreams second allowPrivate view).foldl
        (fun known upstream => assign upstream.dial upstream.host known) [])
        (groupOf view application own dial kept) ↔
      (Contested first allowPrivate view own.host dial → own.scheme = .http ∧ own.hostHeader = .customer) := by
  obtain ⟨rfl, dialed⟩ := resolveDials_of_pinnedDial (printed own (servingOrigin_mem serving)) pinned
  have plainHttp : own.scheme = .http ∧ own.hostHeader = .customer ↔
      (groupOf view application own dial own.host).originTls = false ∧
        (groupOf view application own dial own.host).hostHeader ≠ "origin" := by
    unfold groupOf
    dsimp only
    cases own.scheme <;> cases own.hostHeader <;> decide
  constructor
  · intro offered contested
    obtain ⟨host, found, serves⟩ := offered
    obtain ⟨-, greatest⟩ := (lookup_sorted offeredUpstreams_sorted).mp found
    obtain ⟨other, listed, greater, dials⟩ := contested
    have above : other.host ≤ host :=
      greatest ⟨dial, other.host⟩ ((mem_offeredUpstreams_same same).mpr ⟨other, listed, rfl, dials⟩) rfl
    rcases serves with own_ | plain
    · have equal : host = own.host := own_
      exact absurd (equal ▸ above) (not_le_of_gt greater)
    · exact plainHttp.mpr plain
  · intro uncontested
    have member : (⟨dial, own.host⟩ : Upstream) ∈ offeredUpstreams second allowPrivate view :=
      (mem_offeredUpstreams_same same).mpr ⟨own, servingOrigin_offered stored active serving, rfl, dialed⟩
    obtain ⟨host, found⟩ := lookup_isSome member
    change List.lookup dial _ = some host at found
    obtain ⟨⟨upstream, inside, at_, named⟩, greatest⟩ := (lookup_sorted offeredUpstreams_sorted).mp found
    refine ⟨host, found, ?_⟩
    rcases (greatest _ member rfl : own.host ≤ host).lt_or_eq with greater | equal
    · obtain ⟨other, listed, called, dials⟩ := (mem_offeredUpstreams_same same).mp
        (show ⟨dial, host⟩ ∈ offeredUpstreams second allowPrivate view by
          rw [← at_, ← named]
          exact inside)
      exact .inr (plainHttp.mp (uncontested ⟨other, listed, called ▸ greater, dials⟩))
    · exact .inl equal.symm

/-- The gateway accepts the built configuration exactly when no routed origin that needs its own name
shares its dial with an origin of a greater name. -/
theorem built_accepted_iff {printing : Printing} {settings : ConfigSettings} {token : Option String}
    {trusted : Bool} {facts : EdgeFacts} {desired : Json} (stable : environment.tables.Stable)
    (consistent : view.Consistent environment) (printed : PrintedOrigins first view)
    (same : SameOrigins first second view)
    (built : buildApps first allowPrivate view settings = some desired)
    (fetched : fetchFacts (edgeOrigins second allowPrivate view settings trusted token) = some facts) :
    validateApps printing settings environment.tables facts desired = .ok () ↔
      Uncontested first allowPrivate view := by
  obtain ⟨groups, portal, operator, grouped, portals, operators, rfl⟩ := of_buildApps built
  obtain ⟨portalRanges, operatorRanges, portalKnown, operatorKnown, rfl⟩ := of_fetchFacts fetched
  have members := mem_serveableRouteGroups grouped
  have operatorShape : operator = operatorRoutesFor (portalHosts settings.edgeHostname view)
      operatorRanges settings.assertUpstream := by
    rw [operatorRoutes, operatorKnown] at operators
    cases operators
    rfl
  rw [portalRoutes_built portalKnown portals, operatorShape]
  refine (validateApps_built (portalHosts_sorted _ _) (fun host member => member) rfl
    (fun group member => ?_) (serveableRouteGroups_nodup consistent grouped)).trans ?_
  · obtain ⟨application, stored, -, found⟩ := (members group).mp member
    exact wellFormed_group consistent stable printed stored found
  · constructor
    · intro offered application stored active some_ own serving dial kept pinned
      exact (offered_iff printed same stored active serving pinned).mp
        (offered _ ((members _).mpr ⟨application, stored, active, routeGroup_of serving some_ pinned⟩))
    · intro uncontested group member
      obtain ⟨application, stored, active, found⟩ := (members group).mp member
      obtain ⟨own, dial, kept, serving, some_, pinned, rfl⟩ := routeGroup_some found
      exact (offered_iff printed same stored active serving pinned).mpr
        (uncontested application stored active some_ own serving dial kept pinned)

end Accepted

/-! ## Neighbours -/

/-- An application with an active origin and a verified domain. -/
def lonelyRun : List ServiceOp :=
  [.createApplication "acme" "Acme" "edge.example.net" 1,
    .registerOrigin 1 "app.example.com" "https" none "customer" ⟨7, "k3y"⟩,
    .recordOriginVerification 1 7 none 0, .activateOrigin 1 7,
    .claimDomain 1 "forms.example.com" "workspace" ⟨2, 3, "token"⟩ 0,
    .applyDnsOutcomes 2 { status := .passing } { status := .passing } 1]

/-- Another application with an active origin. -/
def neighbourRun : List ServiceOp :=
  lonelyRun ++ [.createApplication "beta" "Beta" "edge.example.net" 20,
    .registerOrigin 20 "www.example.net" "https" none "customer" ⟨21, "k4y"⟩,
    .recordOriginVerification 20 21 none 2, .activateOrigin 20 21]

theorem serving_printed (view : Database) : PrintedOrigins (serving []) view :=
  fun _ _ => (⟨by simp, by simp [publicAddress]⟩ : Printed [publicAddress])

end CustomDomain
