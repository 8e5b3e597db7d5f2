import CustomDomain.AssertionSdk
import CustomDomain.JavaScript

/-!
# The middlewares of the packages

`CustomDomainMiddleware` of the Python package and `CustomDomainGuard` of the
TypeScript one: which requests reach the application behind them, and with which
assertion.  The two differ in how they read the headers; the decision is the same.
-/

namespace CustomDomain

/-- The text of a code. -/
def Refusal.text : Refusal → String
  | .missing => "missing"
  | .malformed => "malformed"
  | .unknownKey => "unknown_key"
  | .badSignature => "bad_signature"
  | .notYetValid => "not_yet_valid"
  | .expired => "expired"
  | .wrongApplication => "wrong_application"
  | .wrongHostname => "wrong_hostname"

namespace Middleware

open PythonText JavaScript

/-- `host_header`. -/
inductive HostHeader where
  | customer
  | origin
  deriving DecidableEq, Repr

/-- `on_missing`. -/
inductive OnMissing where
  | reject
  | passthrough
  deriving DecidableEq, Repr

/-- `HEADER.lower()`. -/
def assertionHeader : String := "x-custom-domain-assertion"

def forwardedHeader : String := "x-forwarded-host"

def workspacePath : String := "/.well-known/custom-domain-workspace"

def originVerificationPath : String := "/.well-known/custom-domain-origin-verification"

/-- `text.split(separator, 1)[0]`. -/
def beforeFirst (separator : Char) (text : String) : String :=
  String.ofList (text.toList.takeWhile (· ≠ separator))

/-- `text or None`. -/
def orNone (text : String) : Option String := if text = "" then none else some text

/-- What a resolver reads of a request. -/
structure Seen where
  token : Option String
  forwarded : Option String
  host : Option String

/-- What the application behind the middleware gets, or what is answered in its place. -/
inductive Outcome (ε : Type) where
  | run (assertion : Option Assertion)
  | respond (status : Nat) (body : List (String × String))
  | threw (error : ε)

section Decision

variable {ε : Type}

/-- The hostname that an assertion has to be for. -/
def hostnameOf (host : Option String) : Option String :=
  (host.bind orNone).map (beforeFirst ':')

/-- The first value of `X-Forwarded-Host`. -/
def firstForwarded (strip : String → String) (value : String) : String :=
  strip (beforeFirst ',' value)

/-- `WorkspaceResolver.resolve`, with what `verify_assertion` makes of a token and a
hostname. -/
def resolveWith (strip : String → String)
    (verify : Option String → Option String → Except ε Assertion)
    (refuse : AssertionInvalid → ε) (mode : HostHeader) (seen : Seen) : Except ε Assertion :=
  match mode with
  | .customer => verify seen.token (hostnameOf seen.host)
  | .origin =>
      let host := orNone (firstForwarded strip (seen.forwarded.getD ""))
      if host = none ∧ (seen.token.bind orNone).isSome then
        .error (refuse ⟨.wrongHostname, "No X-Forwarded-Host: is the origin in 'origin' mode?"⟩)
      else verify seen.token (hostnameOf host)

/-- The workspace probe, or the application. -/
def serve (lookup : String → Bool) (path : String) (assertion : Option Assertion) : Outcome ε :=
  if path = workspacePath then
    match assertion with
    | none => .respond 403 [("error", "assertion_missing")]
    | some assertion =>
        if lookup assertion.reference then
          .respond 200
            [("reference", assertion.reference), ("application", assertion.applicationId)]
        else .respond 404 [("error", "workspace_not_found")]
  else .run assertion

/-- The decision on a request; `invalid?` says which errors are refusals. -/
def decideWith (invalid? : ε → Option AssertionInvalid) (lookup : String → Bool)
    (onMissing : OnMissing) (exempt : Bool) (path : String) (resolved : Except ε Assertion) :
    Outcome ε :=
  if exempt then .run none
  else
    match resolved with
    | .ok assertion => serve lookup path (some assertion)
    | .error error =>
        match invalid? error with
        | none => .threw error
        | some refusal =>
            if refusal.code = .missing ∧ onMissing = .passthrough then serve lookup path none
            else
              .respond 403
                [("error", "assertion_" ++ refusal.code.text), ("message", refusal.message)]

end Decision

/-! ## The Python package -/

section Python

variable (hmac : List UInt8 → List UInt8 → List UInt8) (runtime : PythonRuntime)

/-- `bytes.decode("latin-1")`. -/
def latin1 (bytes : List UInt8) : String :=
  String.ofList (bytes.map fun byte => Char.ofNat byte.toNat)

/-- The values of the headers with a name, in order. -/
def headerLines (lower : String → String) (headers : List (String × String)) (name : String) :
    List String :=
  (headers.filter fun header => lower header.1 = name).map Prod.snd

/-- `WorkspaceResolver.resolve`, at the time `now`: the dictionary keeps the last of
repeated headers. -/
def resolve (keys : List (String × Secret)) (applicationId : String) (skew : Int)
    (mode : HostHeader) (now : Int) (headers : List (String × String)) (host : Option String) :
    Except AssertionInvalid Assertion :=
  resolveWith strip
    (fun token hostname => verifyAssertion hmac runtime token keys applicationId hostname now skew)
    id mode
    { token := (headerLines runtime.lower headers assertionHeader).getLast?
      forwarded := (headerLines runtime.lower headers forwardedHeader).getLast?
      host := host }

/-- The options of `CustomDomainMiddleware`. -/
structure Options where
  keys : List (String × Secret)
  applicationId : String
  workspaceLookup : String → Bool
  onMissing : OnMissing := .reject
  hostHeader : HostHeader := .customer

/-- The default of `skew` in `WorkspaceResolver`. -/
def defaultSkew : Int := 30

/-- What the middleware reads of an ASGI scope. -/
structure Scope where
  type : String
  path : String
  method : String
  headers : List (List UInt8 × List UInt8)

def Scope.decoded (scope : Scope) : List (String × String) :=
  scope.headers.map fun header => (latin1 header.1, latin1 header.2)

/-- The first `Host` header. -/
def Scope.host (scope : Scope) : Option String :=
  (headerLines runtime.lower scope.decoded "host").head?

/-- `CustomDomainMiddleware.__call__`, at the time `now`. -/
def call (options : Options) (now : Int) (scope : Scope) : Outcome AssertionInvalid :=
  if scope.type ≠ "http" then .run none
  else
    decideWith some options.workspaceLookup options.onMissing
      (scope.path = originVerificationPath && scope.method = "GET") scope.path
      (resolve hmac runtime options.keys options.applicationId defaultSkew options.hostHeader now
        scope.decoded (scope.host runtime))

end Python

/-! ## The TypeScript package -/

namespace TypeScript

open CustomDomain.TypeScript

/-- The value of a header in a plain object. -/
inductive HeaderValue where
  | text (value : String)
  | list (values : List String)

/-- `values.join(", ")`. -/
def joined (values : List String) : String :=
  String.ofList ([',', ' '].intercalate (values.map String.toList))

def HeaderValue.line : HeaderValue → String
  | .text value => value
  | .list values => joined values

/-- `HeadersLike`: the `Headers` of the Fetch API, or the entries of an iterable or a
plain object. -/
inductive HeadersLike where
  | fetch (headers : List (String × String))
  | entries (headers : List (String × Option HeaderValue))

section

variable (hmac : List UInt8 → List UInt8 → List UInt8) (runtime : Runtime)

/-- The values of the headers with a name, in order. -/
def HeadersLike.lines (headers : HeadersLike) (name : String) : List String :=
  match headers with
  | .fetch headers => headerLines runtime.toLowerCase headers name
  | .entries headers =>
      headerLines runtime.toLowerCase
        (headers.filterMap fun header => header.2.map fun value => (header.1, value.line)) name

/-- `headerLookup`: `Headers` joins repeated values, the map keeps the last one. -/
def HeadersLike.get (headers : HeadersLike) (name : String) : Option String :=
  match headers with
  | .fetch _ =>
      let lines := headers.lines runtime name
      if lines = [] then none else some (joined lines)
  | .entries _ => (headers.lines runtime name).getLast?

/-- The options of `CustomDomainGuard`. -/
structure Options where
  keys : List (String × Secret)
  applicationId : String
  workspaceLookup : String → Bool
  onMissing : OnMissing := .reject
  hostHeader : HostHeader := .customer
  skew : Int := 30

structure Request where
  method : String
  path : String
  headers : HeadersLike
  host : Option String

/-- Which errors are an `AssertionInvalid`. -/
def invalid? : Failure → Option AssertionInvalid
  | .invalid refusal => some refusal
  | .dataError => none

/-- What the resolver reads of a request. -/
def Request.seen (request : Request) : Seen where
  token := request.headers.get runtime assertionHeader
  forwarded := request.headers.get runtime forwardedHeader
  host := request.host

/-- `WorkspaceResolver.resolve`, at the time `now`. -/
def resolve (options : Options) (now : Int) (request : Request) : Except Failure Assertion :=
  resolveWith trimmed
    (fun token hostname => CustomDomain.TypeScript.verifyAssertion hmac runtime token options.keys
      options.applicationId hostname now options.skew)
    .invalid options.hostHeader (request.seen runtime)

/-- `request.method.toUpperCase() === "GET"`. -/
def isGet (method : String) : Bool := method.toList.map Char.toUpper = "GET".toList

/-- `CustomDomainGuard.decide`, at the time `now`. -/
def decide (options : Options) (now : Int) (request : Request) : Outcome Failure :=
  decideWith invalid? options.workspaceLookup options.onMissing
    (request.path = originVerificationPath && isGet request.method) request.path
    (resolve hmac runtime options now request)

end

end TypeScript

/-! ## Only verified requests get through -/

section Admission

variable {ε : Type}

/-- What a request carries: the lines of its assertion header, and the name of the
customer's host, if it names one. -/
structure Carried where
  tokens : List String
  host : Option String

/-- An assertion is verified and for the request's own host; without one, the request
is the probe of the origin, or it carries none and may pass. -/
def Admissible (verified : Assertion → Prop) (canonical : String → String) (carried : Carried)
    (onMissing : OnMissing) (exempt : Bool) : Outcome ε → Prop
  | .run (some assertion) =>
      verified assertion ∧
        ∃ host, carried.host = some host ∧ assertion.hostname = canonical (beforeFirst ':' host)
  | .run none =>
      exempt = true ∨ onMissing = .passthrough ∧ ∀ token ∈ carried.tokens, token = ""
  | .respond _ _ => True
  | .threw _ => True

/-- The three ways around: without a `Host` no hostname is compared, the host that is
compared is not the first one that was forwarded, and an empty assertion hides
another. -/
inductive Around (strip : String → String) (verified : Assertion → Prop)
    (canonical : String → String) (carried : Carried) (onMissing : OnMissing) (seen : Seen) :
    HostHeader → Prop where
  | unnamed {assertion : Assertion} (valid : verified assertion)
      (none : ∀ host, seen.host = some host → host = "")
      (other : ∀ host, carried.host = some host →
        assertion.hostname ≠ canonical (beforeFirst ':' host)) :
      Around strip verified canonical carried onMissing seen .customer
  | forwarded {assertion : Assertion} {host : String} (valid : verified assertion)
      (used : orNone (firstForwarded strip (seen.forwarded.getD "")) = some host)
      (same : assertion.hostname = canonical (beforeFirst ':' host))
      (other : ∀ host, carried.host = some host →
        assertion.hostname ≠ canonical (beforeFirst ':' host)) :
      Around strip verified canonical carried onMissing seen .origin
  | hidden {mode : HostHeader} {token : String} (passes : onMissing = .passthrough)
      (none : seen.token.bind orNone = none) (member : token ∈ carried.tokens)
      (filled : token ≠ "") :
      Around strip verified canonical carried onMissing seen mode

/-- What the middlewares rely on: a token is accepted for a hostname if it is verified
and for that hostname, and an absent one is missing. -/
structure Verifier (invalid? : ε → Option AssertionInvalid) (refuse : AssertionInvalid → ε)
    (verified : Option String → Assertion → Prop) (canonical : String → String)
    (verify : Option String → Option String → Except ε Assertion) : Prop where
  accepts : ∀ token hostname assertion, verify token hostname = .ok assertion ↔
    verified token assertion ∧ ∀ name ∈ hostname, assertion.hostname = canonical name
  missing : ∀ token hostname, token.bind orNone = none ↔ ∃ error refusal,
    verify token hostname = .error error ∧ invalid? error = some refusal ∧ refusal.code = .missing
  refuses : ∀ refusal, invalid? (refuse refusal) = some refusal

variable {invalid? : ε → Option AssertionInvalid} {refuse : AssertionInvalid → ε}
  {verified : Option String → Assertion → Prop} {canonical : String → String}
  {verify : Option String → Option String → Except ε Assertion} {strip : String → String}
  {seen : Seen}

theorem orNone_eq_some {text found : String} :
    orNone text = some found ↔ text ≠ "" ∧ text = found := by
  rw [orNone]
  split
  next empty => simp [empty]
  next filled => simp [filled]

theorem hostnameOf_of_orNone {text host : String} (found : orNone text = some host) :
    hostnameOf (some host) = some (beforeFirst ':' host) := by
  obtain ⟨filled, rfl⟩ := orNone_eq_some.mp found
  rw [hostnameOf, Option.bind_some, found, Option.map_some]

theorem Verifier.present (verifier : Verifier invalid? refuse verified canonical verify)
    {token : Option String} {assertion : Assertion} (valid : verified token assertion) :
    token.bind orNone ≠ none := by
  intro absent
  obtain ⟨error, refusal, refused, -⟩ := (verifier.missing token none).mp absent
  have accepted := (verifier.accepts token none assertion).mpr ⟨valid, nofun⟩
  rw [accepted] at refused
  cases refused

/-- The host that the mode compares with. -/
def Compared (strip : String → String) (canonical : String → String) (seen : Seen)
    (assertion : Assertion) : HostHeader → Prop
  | .customer => ∀ name ∈ hostnameOf seen.host, assertion.hostname = canonical name
  | .origin => ∃ host, orNone (firstForwarded strip (seen.forwarded.getD "")) = some host ∧
      assertion.hostname = canonical (beforeFirst ':' host)

theorem Verifier.resolveWith_ok (verifier : Verifier invalid? refuse verified canonical verify)
    (mode : HostHeader) (assertion : Assertion) :
    resolveWith strip verify refuse mode seen = .ok assertion ↔
      verified seen.token assertion ∧ Compared strip canonical seen assertion mode := by
  cases mode with
  | customer => exact verifier.accepts _ _ _
  | origin =>
      rw [resolveWith]
      cases used : orNone (firstForwarded strip (seen.forwarded.getD "")) with
      | none =>
          refine iff_of_false ?_ ?_
          · intro accepted
            split at accepted
            next => cases accepted
            next absent =>
              have valid := ((verifier.accepts _ _ _).mp accepted).1
              refine absent ⟨rfl, Option.isSome_iff_ne_none.mpr (verifier.present valid)⟩
          · rintro ⟨-, host, found, -⟩
            rw [used] at found
            cases found
      | some host =>
          rw [if_neg (by simp), hostnameOf_of_orNone used, verifier.accepts]
          refine and_congr_right fun _ => ?_
          simp [Compared, used]

theorem Verifier.resolveWith_missing (verifier : Verifier invalid? refuse verified canonical verify)
    (mode : HostHeader) :
    seen.token.bind orNone = none ↔ ∃ error refusal,
      resolveWith strip verify refuse mode seen = .error error ∧ invalid? error = some refusal ∧
        refusal.code = .missing := by
  cases mode with
  | customer => exact verifier.missing _ _
  | origin =>
      rw [resolveWith]
      split
      next refused =>
        refine iff_of_false (Option.isSome_iff_ne_none.mp refused.2) ?_
        rintro ⟨error, refusal, ⟨rfl⟩, found, missing⟩
        rw [verifier.refuses] at found
        cases found
        cases missing
      next => exact verifier.missing _ _

variable {carried : Carried} {onMissing : OnMissing} {mode : HostHeader}

/-- What gets around is resolved, or missing. -/
theorem Around.resolved (around : Around strip (verified seen.token) canonical carried onMissing
      seen mode) (verifier : Verifier invalid? refuse verified canonical verify) :
    (∃ assertion, resolveWith strip verify refuse mode seen = .ok assertion ∧
      ∀ host, carried.host = some host →
        assertion.hostname ≠ canonical (beforeFirst ':' host)) ∨
    onMissing = .passthrough ∧ seen.token.bind orNone = none ∧
      ∃ token ∈ carried.tokens, token ≠ "" := by
  cases around with
  | @unnamed assertion valid none other =>
      refine .inl ⟨assertion, (verifier.resolveWith_ok .customer assertion).mpr ⟨valid, ?_⟩, other⟩
      have unchecked : hostnameOf seen.host = Option.none := by
        rw [hostnameOf]
        cases named : seen.host with
        | none => rfl
        | some host =>
            rw [none host named]
            rfl
      rw [Compared, unchecked]
      exact nofun
  | @forwarded assertion host valid used same other =>
      exact .inl ⟨assertion,
        (verifier.resolveWith_ok .origin assertion).mpr ⟨valid, host, used, same⟩, other⟩
  | hidden passes none member filled => exact .inr ⟨passes, none, _, member, filled⟩

/-- Where the token is refused, only another one can be hidden. -/
theorem Around.iff_hidden (verifier : Verifier invalid? refuse verified canonical verify)
    {error : ε} (resolved : resolveWith strip verify refuse mode seen = .error error) :
    Around strip (verified seen.token) canonical carried onMissing seen mode ↔
      onMissing = .passthrough ∧ seen.token.bind orNone = none ∧
        ∃ token ∈ carried.tokens, token ≠ "" := by
  constructor
  · intro around
    rcases around.resolved verifier with ⟨assertion, found, -⟩ | hidden
    · rw [resolved] at found
      cases found
    · exact hidden
  · rintro ⟨passes, absent, token, member, filled⟩
    exact .hidden passes absent member filled

/-- An assertion for another host gets around the comparison. -/
theorem Around.of_resolved (verifier : Verifier invalid? refuse verified canonical verify)
    (named : mode = .customer → carried.host = seen.host) {assertion : Assertion}
    (resolved : resolveWith strip verify refuse mode seen = .ok assertion)
    (other : ∀ host, carried.host = some host →
      assertion.hostname ≠ canonical (beforeFirst ':' host)) :
    Around strip (verified seen.token) canonical carried onMissing seen mode := by
  obtain ⟨valid, compared⟩ := (verifier.resolveWith_ok mode assertion).mp resolved
  cases mode with
  | customer =>
      refine .unnamed valid ?_ other
      intro host found
      by_contra filled
      refine other host ((named rfl).trans found) (compared _ ?_)
      rw [found]
      exact hostnameOf_of_orNone (orNone_eq_some.mpr ⟨filled, rfl⟩)
  | origin =>
      obtain ⟨host, used, same⟩ := compared
      exact .forwarded valid used same other

/-- Nothing gets around a middleware that rejects, where the request names its host. -/
theorem not_around_of_named {verified : Assertion → Prop} {host : String}
    (customer : mode = .customer) (rejects : onMissing = .reject) (named : seen.host = some host)
    (filled : host ≠ "") : ¬ Around strip verified canonical carried onMissing seen mode := by
  subst customer
  intro around
  cases around with
  | unnamed valid none other => exact filled (none host named)
  | hidden passes none member filled =>
      rw [rejects] at passes
      cases passes

/-- The workspace probe never reaches the application. -/
theorem admissible_workspace {verified : Assertion → Prop} {exempt : Bool}
    {lookup : String → Bool} {assertion : Option Assertion} :
    Admissible verified canonical carried onMissing exempt
      (serve (ε := ε) lookup workspacePath assertion) := by
  unfold serve
  rw [if_pos rfl]
  split
  next => trivial
  next => split <;> trivial

theorem serve_elsewhere {path : String} (elsewhere : path ≠ workspacePath)
    (lookup : String → Bool) (assertion : Option Assertion) :
    serve (ε := ε) lookup path assertion = .run assertion := by
  unfold serve
  rw [if_neg elsewhere]

/-- Only verified requests for their own host get through, exactly where nothing gets
around. -/
theorem admissible_iff (verifier : Verifier invalid? refuse verified canonical verify)
    (named : mode = .customer → carried.host = seen.host) (lookup : String → Bool)
    (exempt : Bool) (path : String) :
    Admissible (verified seen.token) canonical carried onMissing exempt
        (decideWith invalid? lookup onMissing exempt path
          (resolveWith strip verify refuse mode seen)) ↔
      exempt = true ∨ path = workspacePath ∨
        ¬ Around strip (verified seen.token) canonical carried onMissing seen mode := by
  unfold decideWith
  by_cases probed : exempt = true
  · rw [if_pos probed]
    exact iff_of_true (.inl probed) (.inl probed)
  rw [if_neg probed]
  by_cases workspace : path = workspacePath
  · subst workspace
    refine iff_of_true ?_ (.inr (.inl rfl))
    split
    next assertion => exact admissible_workspace
    next =>
      split
      next => trivial
      next =>
        split
        next => exact admissible_workspace
        next => trivial
  -- Neither probe: the application runs, or an error is answered.
  rw [or_iff_right probed, or_iff_right workspace]
  have passing : seen.token.bind orNone = none ↔ ∃ error refusal,
      resolveWith strip verify refuse mode seen = .error error ∧ invalid? error = some refusal ∧
        refusal.code = .missing :=
    verifier.resolveWith_missing mode
  cases resolved : resolveWith strip verify refuse mode seen with
  | ok assertion =>
      have valid := ((verifier.resolveWith_ok mode assertion).mp resolved).1
      dsimp only
      rw [serve_elsewhere workspace, Admissible]
      constructor
      · rintro ⟨-, host, carries, same⟩ around
        rcases around.resolved verifier with ⟨other, found, differs⟩ | ⟨-, absent, -⟩
        · rw [resolved] at found
          cases found
          exact differs host carries same
        · exact verifier.present valid absent
      · intro straight
        refine ⟨valid, ?_⟩
        by_contra other
        push Not at other
        exact straight (.of_resolved verifier named resolved other)
  | error error =>
      rw [Around.iff_hidden verifier resolved]
      rw [resolved] at passing
      dsimp only
      split
      next unknown =>
        refine iff_of_true trivial ?_
        rintro ⟨-, absent, -⟩
        obtain ⟨_, refusal, ⟨rfl⟩, found, -⟩ := passing.mp absent
        rw [unknown] at found
        cases found
      next refusal found =>
        split
        next passes =>
          rw [serve_elsewhere workspace, Admissible]
          have absent := passing.mpr ⟨error, refusal, rfl, found, passes.1⟩
          simp [probed, passes.2, absent]
        next refused =>
          refine iff_of_true trivial ?_
          rintro ⟨passes, absent, -⟩
          obtain ⟨_, other, ⟨rfl⟩, same, missing⟩ := passing.mp absent
          rw [found] at same
          cases same
          exact refused ⟨missing, passes⟩

end Admission

/-! ## The two packages -/

section Packages

theorem tokenParts_missing {token : Option String} :
    token.bind orNone = none ↔
      ∃ refusal, tokenParts token = .error refusal ∧ refusal.code = .missing := by
  cases token with
  | none => exact iff_of_true rfl ⟨_, rfl, rfl⟩
  | some text =>
      rw [Option.bind_some, orNone, tokenParts]
      split
      next empty => exact iff_of_true rfl ⟨_, rfl, rfl⟩
      next filled =>
        refine iff_of_false (by simp) ?_
        rintro ⟨refusal, refused, missing⟩
        split at refused
        · cases refused
        · cases refused
          cases missing

variable (hmac : List UInt8 → List UInt8 → List UInt8)

/-- The signature is one under a configured key that can be used, and the payload says
this. -/
def Signed (usable : List UInt8 → Prop) (decode : String → Option (List UInt8))
    (payload? : String → String → Option Assertion) (keys : List (String × Secret))
    (token : Option String) (assertion : Assertion) : Prop :=
  ∃ keyId payload signature secret, tokenParts token = .ok (keyId, payload, signature) ∧
    keys.lookup keyId = some secret ∧ usable secret.key ∧
    decode signature = some (mac hmac secret.key (signingInput keyId payload)) ∧
    payload? keyId payload = some assertion

/-- A token that is verified: signed under a configured key, for the application and
within its lifetime and the skew. -/
structure Verified (runtime : PythonRuntime) (keys : List (String × Secret))
    (applicationId : String) (now skew : Int) (token : Option String) (assertion : Assertion) :
    Prop where
  signed : Signed hmac (fun _ => True) unb64
    (fun keyId payload =>
      ((unb64 payload).bind (loads runtime)).bind (payloadAssertion runtime keyId))
    keys token assertion
  application : assertion.applicationId = applicationId
  issued : assertion.issuedAt - skew ≤ now
  expires : now ≤ assertion.expiresAt + skew

section Python

variable {hmac} {runtime : PythonRuntime} {keys : List (String × Secret)} {applicationId : String}
  {now skew : Int} {token : Option String} {assertion : Assertion}

theorem openToken_ok :
    openToken hmac runtime token (fun keyId => (keys.lookup keyId).map Secret.key) =
        .ok assertion ↔
      Signed hmac (fun _ => True) unb64
        (fun keyId payload =>
          ((unb64 payload).bind (loads runtime)).bind (payloadAssertion runtime keyId))
        keys token assertion := by
  constructor
  · intro opened
    unfold openToken at opened
    split at opened
    next => cases opened
    next keyId payload signature parts =>
      unfold openParts at opened
      split at opened
      next => cases opened
      next key known =>
        obtain ⟨secret, found, rfl⟩ := Option.map_eq_some_iff.mp known
        split at opened
        next => cases opened
        next given decoded =>
          split at opened
          next => cases opened
          next same =>
            split at opened
            next => cases opened
            next read =>
              cases opened
              rw [not_not] at same
              exact ⟨keyId, payload, signature, secret, parts, found, trivial, same ▸ decoded, read⟩
  · rintro ⟨keyId, payload, signature, secret, parts, known, -, decoded, read⟩
    simp only at read
    simp [openToken, parts, openParts, known, decoded, read]

theorem verifyAssertion_ok {hostname : Option String} :
    verifyAssertion hmac runtime token keys applicationId hostname now skew = .ok assertion ↔
      Verified hmac runtime keys applicationId now skew token assertion ∧
        ∀ name ∈ hostname, assertion.hostname = rstripOf '.' (runtime.lower name) := by
  rw [verifyAssertion]
  constructor
  · intro accepted
    cases opened : openToken hmac runtime token (fun keyId => (keys.lookup keyId).map Secret.key) with
    | error refusal =>
        rw [opened] at accepted
        cases accepted
    | ok found =>
        rw [opened] at accepted
        obtain ⟨⟨issued, expires, application, host⟩, rfl⟩ := checkClaims_ok.mp accepted
        refine ⟨⟨openToken_ok.mp opened, (application _ rfl).symm, issued, expires⟩, ?_⟩
        rintro name ⟨⟩
        exact (host _ rfl).symm
  · rintro ⟨⟨signed, application, issued, expires⟩, host⟩
    rw [openToken_ok.mpr signed]
    refine checkClaims_ok.mpr ⟨⟨issued, expires, ?_, ?_⟩, rfl⟩
    · rintro _ ⟨⟩
      exact application.symm
    · intro expected member
      obtain ⟨name, given, rfl⟩ := Option.map_eq_some_iff.mp member
      exact (host name given).symm

theorem openParts_present {key? : String → Option (List UInt8)} {keyId payload signature : String}
    {refusal : AssertionInvalid}
    (refused : openParts hmac runtime key? keyId payload signature = .error refusal) :
    refusal.code ≠ .missing := by
  unfold openParts at refused
  split at refused
  next =>
    cases refused
    simp
  next =>
    split at refused
    next =>
      cases refused
      decide
    next =>
      split at refused
      next =>
        cases refused
        decide
      next =>
        split at refused
        next =>
          cases refused
          decide
        next => cases refused

theorem checkClaims_present {application hostname : Option String} {refusal : AssertionInvalid}
    (refused : checkClaims application hostname now skew assertion = .error refusal) :
    refusal.code ≠ .missing := by
  unfold checkClaims at refused
  split_ifs at refused <;> cases refused <;> decide

theorem verifyAssertion_missing (hostname : Option String) :
    token.bind orNone = none ↔ ∃ error refusal,
      verifyAssertion hmac runtime token keys applicationId hostname now skew = .error error ∧
        some error = some refusal ∧ refusal.code = .missing := by
  rw [tokenParts_missing, verifyAssertion, openToken]
  cases tokenParts token with
  | error refusal =>
      constructor
      · rintro ⟨_, ⟨rfl⟩, missing⟩
        exact ⟨refusal, refusal, rfl, rfl, missing⟩
      · rintro ⟨_, _, ⟨rfl⟩, ⟨rfl⟩, missing⟩
        exact ⟨refusal, rfl, missing⟩
  | ok parts =>
      refine iff_of_false (by simp) ?_
      rintro ⟨_, refusal, refused, ⟨rfl⟩, missing⟩
      dsimp only at refused
      cases opened : openParts hmac runtime (fun keyId => (keys.lookup keyId).map Secret.key)
          parts.1 parts.2.1 parts.2.2 with
      | error found =>
          rw [opened] at refused
          cases refused
          exact openParts_present opened missing
      | ok assertion =>
          rw [opened] at refused
          exact checkClaims_present refused missing

theorem verifier :
    Verifier some id (Verified hmac runtime keys applicationId now skew)
      (fun name => rstripOf '.' (runtime.lower name))
      (fun token hostname =>
        verifyAssertion hmac runtime token keys applicationId hostname now skew) where
  accepts _ _ _ := verifyAssertion_ok
  missing _ hostname := verifyAssertion_missing hostname
  refuses _ := rfl

end Python

section TypeScript

open DoubleRounding CustomDomain.TypeScript

/-- A token that is verified: the sums are those of doubles, and Web Crypto takes no
empty key. -/
structure TypeScript.Verified (runtime : Runtime) (keys : List (String × Secret))
    (applicationId : String) (now skew : Int) (token : Option String) (assertion : Assertion) :
    Prop where
  signed : Signed hmac (· ≠ []) base64urlDecode (decodePayload runtime) keys token assertion
  application : assertion.applicationId = applicationId
  issued : (assertion.issuedAt : Rat) ≤ add ⌊toDouble now⌋ (toDouble skew)
  expires : (⌊toDouble now⌋ : Rat) ≤ add assertion.expiresAt (toDouble skew)

variable {hmac} {runtime : Runtime} {keys : List (String × Secret)} {applicationId : String}
  {now skew : Int} {token : Option String} {assertion : Assertion}

theorem TypeScript.openToken_ok :
    CustomDomain.TypeScript.openToken hmac runtime token keys = .ok assertion ↔
      Signed hmac (· ≠ []) base64urlDecode (decodePayload runtime) keys token assertion := by
  constructor
  · intro opened
    unfold CustomDomain.TypeScript.openToken at opened
    split at opened
    next => cases opened
    next keyId payload signature parts =>
      unfold CustomDomain.TypeScript.openParts at opened
      split at opened
      next => cases opened
      next secret known =>
        split at opened
        next => cases opened
        next given decoded =>
          split at opened
          next => cases opened
          next usable =>
            split at opened
            next => cases opened
            next same =>
              split at opened
              next => cases opened
              next read =>
                cases opened
                rw [not_not] at same
                rw [← same] at decoded
                exact ⟨keyId, payload, signature, secret, parts, known, usable, decoded, read⟩
  · rintro ⟨keyId, payload, signature, secret, parts, known, usable, decoded, read⟩
    rw [mac] at decoded
    simp [CustomDomain.TypeScript.openToken, parts, CustomDomain.TypeScript.openParts, known,
      usable, decoded, read]

theorem TypeScript.checkClaims_ok {hostname : Option String} {result : Assertion} :
    CustomDomain.TypeScript.checkClaims runtime applicationId hostname now skew assertion =
        .ok result ↔
      ((assertion.issuedAt : Rat) ≤ add ⌊toDouble now⌋ (toDouble skew) ∧
        (⌊toDouble now⌋ : Rat) ≤ add assertion.expiresAt (toDouble skew) ∧
        assertion.applicationId = applicationId ∧
        ∀ name ∈ hostname, assertion.hostname = rstripOf '.' (runtime.toLowerCase name)) ∧
      result = assertion := by
  have differs : (hostname.any fun name =>
      Decidable.decide (assertion.hostname ≠ rstripOf '.' (runtime.toLowerCase name))) = true ↔
        ¬ ∀ name ∈ hostname, assertion.hostname = rstripOf '.' (runtime.toLowerCase name) := by
    cases hostname <;> simp
  unfold CustomDomain.TypeScript.checkClaims
  dsimp only
  split
  next early => exact ⟨nofun, fun facts => absurd facts.1.1 (not_le.mpr early)⟩
  next issued =>
    split
    next late => exact ⟨nofun, fun facts => absurd facts.1.2.1 (not_le.mpr late)⟩
    next expires =>
      split
      next application => exact ⟨nofun, fun facts => absurd facts.1.2.2.1 application⟩
      next application =>
        split
        next other => exact ⟨nofun, fun facts => absurd facts.1.2.2.2 (differs.mp other)⟩
        next host =>
          rw [not_not] at application
          rw [differs, not_not] at host
          rw [Except.ok.injEq]
          constructor
          · rintro rfl
            exact ⟨⟨not_lt.mp issued, not_lt.mp expires, application, host⟩, rfl⟩
          · rintro ⟨-, rfl⟩
            rfl

theorem TypeScript.verifyAssertion_ok {hostname : Option String} :
    CustomDomain.TypeScript.verifyAssertion hmac runtime token keys applicationId hostname now
        skew = .ok assertion ↔
      TypeScript.Verified hmac runtime keys applicationId now skew token assertion ∧
        ∀ name ∈ hostname, assertion.hostname = rstripOf '.' (runtime.toLowerCase name) := by
  rw [CustomDomain.TypeScript.verifyAssertion]
  constructor
  · intro accepted
    cases opened : CustomDomain.TypeScript.openToken hmac runtime token keys with
    | error failure =>
        rw [opened] at accepted
        cases accepted
    | ok found =>
        rw [opened] at accepted
        obtain ⟨⟨issued, expires, application, host⟩, rfl⟩ := TypeScript.checkClaims_ok.mp accepted
        exact ⟨⟨TypeScript.openToken_ok.mp opened, application, issued, expires⟩, host⟩
  · rintro ⟨⟨signed, application, issued, expires⟩, host⟩
    rw [TypeScript.openToken_ok.mpr signed]
    exact TypeScript.checkClaims_ok.mpr ⟨⟨issued, expires, application, host⟩, rfl⟩

theorem TypeScript.openParts_present {keyId payload signature : String}
    {refusal : AssertionInvalid}
    (refused : CustomDomain.TypeScript.openParts hmac runtime keys keyId payload signature =
      .error (.invalid refusal)) :
    refusal.code ≠ .missing := by
  unfold CustomDomain.TypeScript.openParts at refused
  split at refused
  next =>
    cases refused
    simp
  next =>
    split at refused
    next =>
      cases refused
      decide
    next =>
      split at refused
      next => cases refused
      next =>
        split at refused
        next =>
          cases refused
          decide
        next =>
          split at refused
          next =>
            cases refused
            decide
          next => cases refused

theorem TypeScript.checkClaims_present {hostname : Option String} {refusal : AssertionInvalid}
    (refused : CustomDomain.TypeScript.checkClaims runtime applicationId hostname now skew
      assertion = .error (.invalid refusal)) :
    refusal.code ≠ .missing := by
  unfold CustomDomain.TypeScript.checkClaims at refused
  dsimp only at refused
  split_ifs at refused <;> cases refused <;> decide

theorem TypeScript.verifyAssertion_missing (hostname : Option String) :
    token.bind orNone = none ↔ ∃ error refusal,
      CustomDomain.TypeScript.verifyAssertion hmac runtime token keys applicationId hostname now
          skew = .error error ∧
        TypeScript.invalid? error = some refusal ∧ refusal.code = .missing := by
  rw [tokenParts_missing, CustomDomain.TypeScript.verifyAssertion,
    CustomDomain.TypeScript.openToken]
  cases tokenParts token with
  | error refusal =>
      constructor
      · rintro ⟨_, ⟨rfl⟩, missing⟩
        exact ⟨.invalid refusal, refusal, rfl, rfl, missing⟩
      · rintro ⟨_, _, ⟨rfl⟩, ⟨rfl⟩, missing⟩
        exact ⟨refusal, rfl, missing⟩
  | ok parts =>
      refine iff_of_false (by simp) ?_
      rintro ⟨error, refusal, refused, found, missing⟩
      cases error with
      | dataError => cases found
      | invalid other =>
          cases found
          dsimp only at refused
          cases opened : CustomDomain.TypeScript.openParts hmac runtime keys parts.1 parts.2.1
              parts.2.2 with
          | error failure =>
              rw [opened] at refused
              cases refused
              exact TypeScript.openParts_present opened missing
          | ok assertion =>
              rw [opened] at refused
              exact TypeScript.checkClaims_present refused missing

theorem TypeScript.verifier :
    Verifier TypeScript.invalid? Failure.invalid
      (TypeScript.Verified hmac runtime keys applicationId now skew)
      (fun name => rstripOf '.' (runtime.toLowerCase name))
      (fun token hostname => CustomDomain.TypeScript.verifyAssertion hmac runtime token keys
        applicationId hostname now skew) where
  accepts _ _ _ := TypeScript.verifyAssertion_ok
  missing _ hostname := TypeScript.verifyAssertion_missing hostname
  refuses _ := rfl

end TypeScript

/-- What an HTTP request to the Python middleware carries. -/
def Scope.carried (runtime : PythonRuntime) (mode : HostHeader) (scope : Scope) : Carried where
  tokens := headerLines runtime.lower scope.decoded assertionHeader
  host :=
    match mode with
    | .customer => scope.host runtime
    | .origin =>
        (headerLines runtime.lower scope.decoded forwardedHeader).head?.map (firstForwarded strip)

/-- What a request to the guard carries. -/
def TypeScript.Request.carried (runtime : CustomDomain.TypeScript.Runtime) (mode : HostHeader)
    (request : TypeScript.Request) : Carried where
  tokens := request.headers.lines runtime assertionHeader
  host :=
    match mode with
    | .customer => request.host
    | .origin =>
        (request.headers.lines runtime forwardedHeader).head?.map (firstForwarded trimmed)

/-- What the Python resolver reads of a request. -/
def Scope.seen (runtime : PythonRuntime) (scope : Scope) : Seen where
  token := (headerLines runtime.lower scope.decoded assertionHeader).getLast?
  forwarded := (headerLines runtime.lower scope.decoded forwardedHeader).getLast?
  host := scope.host runtime

/-- Whether the Python middleware admits only verified requests for their own host. -/
def Admits (runtime : PythonRuntime) (options : Options) (now : Int) (scope : Scope) : Prop :=
  Admissible
    (Verified hmac runtime options.keys options.applicationId now defaultSkew
      (scope.seen runtime).token)
    (fun name => rstripOf '.' (runtime.lower name)) (scope.carried runtime options.hostHeader)
    options.onMissing (scope.path = originVerificationPath && scope.method = "GET")
    (call hmac runtime options now scope)

/-- Whether the guard does. -/
def TypeScript.Admits (runtime : CustomDomain.TypeScript.Runtime) (options : TypeScript.Options)
    (now : Int) (request : TypeScript.Request) : Prop :=
  Admissible
    (TypeScript.Verified hmac runtime options.keys options.applicationId now options.skew
      (request.seen runtime).token)
    (fun name => rstripOf '.' (runtime.toLowerCase name))
    (request.carried runtime options.hostHeader) options.onMissing
    (request.path = originVerificationPath && TypeScript.isGet request.method)
    (TypeScript.decide hmac runtime options now request)

theorem Scope.admits_iff {runtime : PythonRuntime} {options : Options} {now : Int} {scope : Scope}
    (http : scope.type = "http") :
    Admits hmac runtime options now scope ↔
      (scope.path = originVerificationPath && scope.method = "GET") = true ∨
      scope.path = workspacePath ∨
      ¬ Around strip
        (Verified hmac runtime options.keys options.applicationId now defaultSkew
          (scope.seen runtime).token)
        (fun name => rstripOf '.' (runtime.lower name)) (scope.carried runtime options.hostHeader)
        options.onMissing (scope.seen runtime) options.hostHeader := by
  have named : options.hostHeader = .customer →
      (scope.carried runtime options.hostHeader).host = (scope.seen runtime).host := by
    intro mode
    rw [mode]
    rfl
  rw [Admits, call, if_neg (not_not.mpr http)]
  exact admissible_iff verifier named options.workspaceLookup _ scope.path

/-- A verified assertion is admitted for an empty host. -/
theorem Scope.not_admits {runtime : PythonRuntime} {options : Options} {now : Int} {scope : Scope}
    {assertion : Assertion} (http : scope.type = "http") (customer : options.hostHeader = .customer)
    (elsewhere : scope.path ≠ originVerificationPath ∧ scope.path ≠ workspacePath)
    (valid : Verified hmac runtime options.keys options.applicationId now defaultSkew
      (scope.seen runtime).token assertion)
    (host : (scope.seen runtime).host = some "")
    (other : assertion.hostname ≠ rstripOf '.' (runtime.lower (beforeFirst ':' ""))) :
    ¬ Admits hmac runtime options now scope := by
  rw [scope.admits_iff hmac http]
  rintro (probe | workspace | straight)
  · simp [elsewhere.1] at probe
  · exact elsewhere.2 workspace
  · rw [customer] at straight
    refine straight (.unnamed valid ?_ ?_)
    · intro name found
      exact Option.some.inj (found.symm.trans host)
    · intro name found
      rw [Option.some.inj (found.symm.trans host)]
      exact other

end Packages

/-- The middlewares of both packages admit only verified requests for their own host,
exactly where nothing gets around them. -/
theorem middlewares_admit_iff (hmac : List UInt8 → List UInt8 → List UInt8) :
    (∀ (runtime : PythonRuntime) (options : Options) (now : Int) (scope : Scope),
      scope.type = "http" →
      (Admits hmac runtime options now scope ↔
        (scope.path = originVerificationPath && scope.method = "GET") = true ∨
        scope.path = workspacePath ∨
        ¬ Around strip
          (Verified hmac runtime options.keys options.applicationId now defaultSkew
            (scope.seen runtime).token)
          (fun name => rstripOf '.' (runtime.lower name)) (scope.carried runtime options.hostHeader)
          options.onMissing (scope.seen runtime) options.hostHeader)) ∧
    ∀ (runtime : CustomDomain.TypeScript.Runtime) (options : TypeScript.Options) (now : Int)
      (request : TypeScript.Request),
      (TypeScript.Admits hmac runtime options now request ↔
        (request.path = originVerificationPath && TypeScript.isGet request.method) = true ∨
        request.path = workspacePath ∨
        ¬ Around trimmed
          (TypeScript.Verified hmac runtime options.keys options.applicationId now options.skew
            (request.seen runtime).token)
          (fun name => rstripOf '.' (runtime.toLowerCase name))
          (request.carried runtime options.hostHeader) options.onMissing (request.seen runtime)
          options.hostHeader) := by
  constructor
  · intro runtime options now scope http
    exact scope.admits_iff hmac http
  · intro runtime options now request
    have named : options.hostHeader = .customer →
        (request.carried runtime options.hostHeader).host = (request.seen runtime).host := by
      intro mode
      rw [mode]
      rfl
    exact admissible_iff TypeScript.verifier named options.workspaceLookup _ request.path

section Sample

open CustomDomain.TypeScript (sampleKeys sampleAssertion)

/-- ASCII text is the same in both encodings. -/
theorem latin1_encodeUtf8 {text : String}
    (ascii : ∀ character ∈ text.toList, character.toNat < 128) :
    latin1 (encodeUtf8 text) = text := by
  rw [latin1, encodeUtf8, List.map_flatMap]
  have same : ∀ character ∈ text.toList,
      (String.utf8EncodeChar character).map (fun byte => Char.ofNat byte.toNat) = [character] := by
    intro character member
    have small := ascii character member
    have size : character.utf8Size = 1 :=
      Char.utf8Size_eq_one_iff.mpr (UInt32.le_iff_toNat_le.mpr (Nat.le_of_lt_succ small))
    have byte : character.val.toUInt8.toNat = character.toNat := by
      rw [UInt32.toNat_toUInt8]
      exact Nat.mod_eq_of_lt (lt_trans small (by decide))
    rw [String.utf8EncodeChar_eq_singleton size, List.map_singleton, byte, Char.ofNat_toNat]
  rw [List.flatMap_congr same]
  simp

theorem append_ascii {first second : String}
    (ascii : ∀ character ∈ first.toList, character.toNat < 128)
    (ascii' : ∀ character ∈ second.toList, character.toNat < 128) :
    ∀ character ∈ (first ++ second).toList, character.toNat < 128 := by
  intro character member
  rw [String.toList_append, List.mem_append] at member
  exact member.elim (ascii character) (ascii' character)

theorem b64_ascii (data : List UInt8) : ∀ character ∈ (b64 data).toList, character.toNat < 128 := by
  rw [b64_eq, String.toList_ofList]
  exact fun character member => (Base64.encode_facts character member).1

theorem token_ascii {assertion : Assertion} {key : List UInt8}
    {hmac : List UInt8 → List UInt8 → List UInt8}
    (ascii : ∀ character ∈ assertion.keyId.toList, character.toNat < 128) :
    ∀ character ∈ (assertion.token hmac key).toList, character.toNat < 128 := by
  rw [Assertion.token, signingInput]
  exact append_ascii (append_ascii (append_ascii (append_ascii (append_ascii (append_ascii
    (forall_of_all (by decide)) (forall_of_all (by decide))) ascii) (forall_of_all (by decide)))
    (b64_ascii _)) (forall_of_all (by decide))) (b64_ascii _)

/-- The token of the sample assertion. -/
def sampleToken : String := sampleAssertion.token sampleHmac (encodeUtf8 sampleSecret)

/-- A request to the application `1` with that token. -/
def sampleScope (host : String) : Scope where
  type := "http"
  path := "/"
  method := "GET"
  headers :=
    [(encodeUtf8 "X-Custom-Domain-Assertion", encodeUtf8 sampleToken),
      (encodeUtf8 "Host", encodeUtf8 host)]

def sampleOptions : Options where
  keys := sampleKeys
  applicationId := "1"
  workspaceLookup := fun _ => true

theorem sampleScope_token (host : String) :
    ((sampleScope host).seen sampleRuntime).token = some sampleToken := by
  have first : sampleRuntime.lower (latin1 (encodeUtf8 "X-Custom-Domain-Assertion")) =
      assertionHeader := by
    decide +kernel
  have second : sampleRuntime.lower (latin1 (encodeUtf8 "Host")) ≠ assertionHeader := by
    decide +kernel
  have text : latin1 (encodeUtf8 sampleToken) = sampleToken :=
    latin1_encodeUtf8 (token_ascii (forall_of_all (by decide)))
  simp [Scope.seen, headerLines, Scope.decoded, sampleScope, first, second, text]

theorem sampleScope_host (host : String)
    (ascii : ∀ character ∈ host.toList, character.toNat < 128) :
    ((sampleScope host).seen sampleRuntime).host = some host := by
  have first : sampleRuntime.lower (latin1 (encodeUtf8 "X-Custom-Domain-Assertion")) ≠ "host" := by
    decide +kernel
  have second : sampleRuntime.lower (latin1 (encodeUtf8 "Host")) = "host" := by
    decide +kernel
  simp [Scope.seen, Scope.host, headerLines, Scope.decoded, sampleScope, first, second,
    latin1_encodeUtf8 ascii]

/-- The token of the sample assertion is verified. -/
theorem sampleVerified :
    Verified sampleHmac sampleRuntime sampleKeys "1" 1000 30 (some sampleToken)
      sampleAssertion where
  signed := openToken_ok.mp (openToken_token rfl (by decide) (by decide))
  application := rfl
  issued := by decide
  expires := by decide

/-- A request for the hostname of the assertion is admitted. -/
theorem middlewares_admit_sample :
    Admits sampleHmac sampleRuntime sampleOptions 1000 (sampleScope "forms.example.com") := by
  have admits := (middlewares_admit_iff sampleHmac).1 sampleRuntime sampleOptions 1000
    (sampleScope "forms.example.com") rfl
  have host := sampleScope_host "forms.example.com" (forall_of_all (by decide))
  rw [admits]
  right
  right
  exact not_around_of_named rfl rfl host (by decide)

/-- With an empty `Host` the assertion for another host is admitted. -/
theorem middleware_admits_unnamed :
    ¬ Admits sampleHmac sampleRuntime sampleOptions 1000 (sampleScope "") := by
  have other : sampleAssertion.hostname ≠
      rstripOf '.' (sampleRuntime.lower (beforeFirst ':' "")) := by
    decide +kernel
  have valid : Verified sampleHmac sampleRuntime sampleOptions.keys sampleOptions.applicationId
      1000 defaultSkew ((sampleScope "").seen sampleRuntime).token sampleAssertion := by
    rw [sampleScope_token]
    exact sampleVerified
  exact Scope.not_admits sampleHmac rfl rfl (by decide) valid (sampleScope_host "" (forall_of_all (by decide))) other

end Sample

end Middleware

end CustomDomain
