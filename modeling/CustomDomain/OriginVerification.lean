import CustomDomain.ApplicationService
import CustomDomain.PythonIpAddress

/-!
# Proof of control over an origin

`verify_origin` asks the origin for its verification token, over one of the
addresses its host resolves to, and records the outcome on the origin.
-/

namespace CustomDomain.OriginVerification

open Transaction PythonText

/-- `WELL_KNOWN_PATH`. -/
def wellKnownPath : String := "/.well-known/custom-domain-origin-verification"

/-- `MAX_BODY_BYTES`. -/
def maxBodyBytes : Nat := 4096

/-- The codes of `OriginVerificationFailed`. -/
inductive FailureCode where
  | dnsResolutionFailed
  | privateAddressBlocked
  | timeout
  | connectionFailed
  | tlsVerificationFailed
  | tlsHandshakeFailed
  | responseTooLarge
  | unexpectedStatus
  | tokenMismatch
  deriving DecidableEq

def FailureCode.value : FailureCode → String
  | .dnsResolutionFailed => "dns_resolution_failed"
  | .privateAddressBlocked => "private_address_blocked"
  | .timeout => "timeout"
  | .connectionFailed => "connection_failed"
  | .tlsVerificationFailed => "tls_verification_failed"
  | .tlsHandshakeFailed => "tls_handshake_failed"
  | .responseTooLarge => "response_too_large"
  | .unexpectedStatus => "unexpected_status"
  | .tokenMismatch => "token_mismatch"

/-- `OriginVerificationFailed`. -/
structure Failed where
  code : FailureCode
  message : String
  deriving DecidableEq

/-- The exceptions of a probe that no handler names: an `OSError` of `getaddrinfo` that is no
`gaierror`, and what is neither an `OSError` nor an `HTTPException`, such as the `ValueError` of
`response.read` for a negative chunk size. -/
inductive Unhandled where
  | osError
  | other
  deriving DecidableEq

/-- The exceptions that `verify_origin` can end with. -/
inductive Raised where
  | failed (failed : Failed)
  | unhandled (exception : Unhandled)
  | assertionError
  | typeError
  | dataError
  deriving DecidableEq

structure Probe where
  address : String
  status : Nat
  body : String
  deriving DecidableEq

/-! ## The network -/

/-- The first entry of a socket address of `getaddrinfo`: the text of an IP address. -/
structure SocketAddress where
  text : String
  ip : PythonIp.IpAddress
  parses : PythonIp.ipAddress text = some ip
  deriving DecidableEq

/-- What `getaddrinfo` comes to: a `gaierror` with its text, or addresses. -/
inductive Lookup where
  | failed (reason : String)
  | found (addresses : List SocketAddress)

inductive Connecting where
  | timedOut
  | failed (reason : String)
  | raised
  | connected

inductive Handshake where
  | done
  | certificateRefused (reason : String)
  | failed (reason : String)
  | timedOut
  | broken (reason : String)
  | raised

/-- What a request comes to: a timeout, another error of the connection or of the
protocol, an exception that is neither, or a status and a body. -/
inductive Answer where
  | timedOut
  | broken (reason : String)
  | raised
  | answered (status : Nat) (body : List UInt8)

/-- How the server at one address behaves. -/
structure Peer where
  connecting : Connecting := .connected
  handshake : Handshake := .done
  answer : Answer

structure Network where
  lookup : String → Nat → Lookup
  peer : SocketAddress → Peer

/-- A network where `getaddrinfo` can also raise what `resolve` does not handle. -/
structure ProbedNetwork extends Network where
  lookupRaises : String → Nat → Option Unhandled := fun _ _ => none

/-! ## The probe -/

section Probe

variable (network : Network) (host : String) (port : Nat)

/-- `resolve`. -/
def resolve (allowPrivate : Bool) : Except Failed (List SocketAddress) :=
  match network.lookup host port with
  | .failed reason => .error ⟨.dnsResolutionFailed, host ++ " does not resolve: " ++ reason⟩
  | .found answers =>
      let addresses := answers.foldl
        (fun addresses address =>
          if address ∈ addresses then addresses else addresses ++ [address]) []
      if addresses = [] then .error ⟨.dnsResolutionFailed, host ++ " has no addresses"⟩
      else
        let blocked := addresses.filter fun address => !address.ip.isGlobal
        if allowPrivate = false ∧ blocked ≠ [] then
          .error ⟨.privateAddressBlocked, host ++ " resolves to non-public address(es) " ++
            ", ".intercalate (blocked.map (·.text)) ++ "; origins must be publicly routable. " ++
            "Set ORIGIN_ALLOW_PRIVATE=true only for a trusted self-hosted deployment."⟩
        else .ok addresses

variable (scheme : OriginScheme) (timeout : String)

/-- The part of `_probe` after the connection is set up. -/
def ask (address : SocketAddress) (at_ : String) : Answer → Except Raised Probe
  | .timedOut => .error (.failed ⟨.timeout, host ++ " did not answer within " ++ timeout ++ "s"⟩)
  | .broken reason =>
      .error (.failed ⟨.connectionFailed, "Request to " ++ at_ ++ " failed: " ++ reason⟩)
  | .raised => .error (.unhandled .other)
  | .answered status body =>
      let body := body.take (maxBodyBytes + 1)
      if maxBodyBytes < body.length then
        .error (.failed ⟨.responseTooLarge, wellKnownPath ++ " returned more than " ++
          toString maxBodyBytes ++ " bytes; serve only the token"⟩)
      else .ok ⟨address.text, status, strip (decodeReplace body)⟩

/-- `_probe` of the well-known path; `timeout` is the timeout as its messages show it. -/
def probe (address : SocketAddress) : Except Raised Probe :=
  let peer := network.peer address
  let at_ := host ++ " (" ++ address.text ++ ":" ++ toString port ++ ")"
  match peer.connecting with
  | .timedOut =>
      .error (.failed ⟨.timeout, "Connecting to " ++ at_ ++ " timed out after " ++ timeout ++ "s"⟩)
  | .failed reason =>
      .error (.failed ⟨.connectionFailed, "Cannot connect to " ++ at_ ++ ": " ++ reason⟩)
  | .raised => .error (.unhandled .other)
  | .connected =>
      if scheme = .https then
        match peer.handshake with
        | .done => ask host timeout address at_ peer.answer
        | .certificateRefused reason =>
            .error (.failed ⟨.tlsVerificationFailed, "The certificate presented by " ++ host ++
              " is not valid for it or not trusted: " ++ reason⟩)
        | .failed reason =>
            .error (.failed ⟨.tlsHandshakeFailed, "TLS handshake with " ++ at_ ++ " failed: " ++
              reason ++ ". Is the origin serving HTTPS on this port?"⟩)
        | .timedOut => ask host timeout address at_ .timedOut
        | .broken reason => ask host timeout address at_ (.broken reason)
        | .raised => ask host timeout address at_ .raised
      else ask host timeout address at_ peer.answer

/-- The loop of `fetch_token`: an address that cannot be reached gives way to the next. -/
def fetchEach (probe : SocketAddress → Except Raised Probe) :
    List SocketAddress → Option Failed → Except Raised Probe
  | [], none => .error .assertionError
  | [], some lastError => .error (.failed lastError)
  | address :: rest, _ =>
      match probe address with
      | .ok answer => .ok answer
      | .error (.failed failed) =>
          if failed.code = .connectionFailed ∨ failed.code = .timeout then
            fetchEach probe rest (some failed)
          else .error (.failed failed)
      | .error raised => .error raised

end Probe

/-- `fetch_token`. -/
def fetchToken (network : ProbedNetwork) (host : String) (port : Nat) (scheme : OriginScheme)
    (timeout : String) (allowPrivate : Bool) : Except Raised Probe :=
  match network.lookupRaises host port with
  | some exception => .error (.unhandled exception)
  | none =>
      match resolve network.toNetwork host port allowPrivate with
      | .error failed => .error (.failed failed)
      | .ok addresses =>
          fetchEach (probe network.toNetwork host port scheme timeout) addresses none

/-! ## The outcome -/

/-- How `verify_origin` ends, with the origin as it returns it. -/
abbrev Ending := Except Raised VerifiedOrigin

def unexpectedStatus (origin : VerifiedOrigin) (status : Nat) : Failed where
  code := .unexpectedStatus
  message := "GET " ++ wellKnownPath ++ " on " ++ origin.host ++ " returned HTTP " ++
    toString status ++ "; expected 200 with the verification token as the plain-text body"

def tokenMismatch (origin : VerifiedOrigin) : Failed where
  code := .tokenMismatch
  message := "GET " ++ wellKnownPath ++ " on " ++ origin.host ++
    " returned a body that is not this origin's verification token; check the token was copied " ++
    "exactly"

/-- The comparison of the answer with the token of the origin. -/
def compareToken (origin : VerifiedOrigin) (probe : Probe) : Except Raised Unit :=
  let expected := origin.verificationToken.getD ""
  if probe.status ≠ 200 then .error (.failed (unexpectedStatus origin probe.status))
  else if expected = "" then .error (.failed (tokenMismatch origin))
  else
    match compareDigest probe.body expected with
    | none => .error .typeError
    | some same => if same = true then .ok () else .error (.failed (tokenMismatch origin))

/-- The body of the `try` of `verify_origin`. -/
def prove (network : ProbedNetwork) (allowPrivate : Bool) (timeout : String) (origin : VerifiedOrigin) :
    Except Raised Unit :=
  match fetchToken network origin.host origin.port origin.scheme timeout allowPrivate with
  | .error raised => .error raised
  | .ok probe => compareToken origin probe

/-- `verify_origin`. -/
def verifyOrigin (backend : Backend) (network : ProbedNetwork) (allowPrivate : Bool) (timeout : String)
    (origin : VerifiedOrigin) (now : Time) : Sql Ending :=
  match prove network allowPrivate timeout origin with
  | .ok () => do
      let verified ← recordOriginVerification origin none now
      return .ok verified
  | .error (.failed failed) =>
      -- The flush of a message that the database refuses raises in place of the failure.
      if backend.stores failed.message then do
        let _ ← recordOriginVerification origin (some (some failed.code.value, some failed.message))
          now
        return .error (.failed failed)
      else return .error .dataError
  | .error raised => return .error raised

/-! ## Every outcome is recorded -/

section Recording

variable {backend : Backend} {network : ProbedNetwork} {allowPrivate : Bool} {timeout : String}
variable {origin : VerifiedOrigin} {now : Time} {db : Database}

theorem ask_ne_assertionError (host timeout at_ : String) (address : SocketAddress)
    (answer : Answer) : ask host timeout address at_ answer ≠ .error .assertionError := by
  cases answer with
  | answered status body =>
      simp only [ask]
      split_ifs <;> simp
  | _ => simp [ask]

theorem probe_ne_assertionError (network : Network) (host : String) (port : Nat)
    (scheme : OriginScheme) (timeout : String) (address : SocketAddress) :
    probe network host port scheme timeout address ≠ .error .assertionError := by
  unfold probe
  dsimp only
  split
  · simp
  · simp
  · simp
  · split_ifs
    · split
      · exact ask_ne_assertionError _ _ _ _ _
      · simp
      · simp
      · exact ask_ne_assertionError _ _ _ _ _
      · exact ask_ne_assertionError _ _ _ _ _
      · exact ask_ne_assertionError _ _ _ _ _
    · exact ask_ne_assertionError _ _ _ _ _

theorem fetchEach_ne_assertionError {probe : SocketAddress → Except Raised Probe}
    (each : ∀ address, probe address ≠ .error .assertionError)
    (addresses : List SocketAddress) (lastError : Option Failed)
    (some_ : addresses ≠ [] ∨ lastError.isSome) :
    fetchEach probe addresses lastError ≠ .error .assertionError := by
  induction addresses generalizing lastError with
  | nil =>
      cases lastError with
      | none => simp at some_
      | some failed => simp [fetchEach]
  | cons address rest ih =>
      simp only [fetchEach]
      split
      next => simp
      next failed refused =>
        split_ifs
        · exact ih _ (.inr rfl)
        · simp
      next raised other _ stopped => exact stopped ▸ each address

/-- `assert last_error is not None` holds: there is an address to probe. -/
theorem fetchToken_ne_assertionError (network : ProbedNetwork) (host : String) (port : Nat)
    (scheme : OriginScheme) (timeout : String) (allowPrivate : Bool) :
    fetchToken network host port scheme timeout allowPrivate ≠ .error .assertionError := by
  unfold fetchToken
  split
  next => simp
  next =>
    split
    next => simp
    next addresses resolved =>
      refine fetchEach_ne_assertionError (probe_ne_assertionError _ _ _ _ _) _ _ (.inl ?_)
      unfold resolve at resolved
      split at resolved
      next => cases resolved
      next =>
        simp only at resolved
        split_ifs at resolved with empty
        all_goals cases resolved
        exact empty

/-- The origin as the session holds it: as it is stored, within the keys of its table. -/
structure Stored (backend : Backend) (db : Database) (origin : VerifiedOrigin) : Prop where
  member : origin ∈ db.origins
  keyed : (db.origins.map (·.id)).Nodup
  oneActive : origin.isActive = true → ∀ other ∈ db.origins,
    other.applicationId = origin.applicationId → other.isActive = true → other.id = origin.id
  host : backend.stores origin.host = true

/-- A flush that does not switch the origin on. -/
theorem flushOrigin_run (stored : Stored backend db origin) {next : VerifiedOrigin}
    (faithful : origin.patch next origin = next)
    (active : next.isActive = true → origin.isActive = true) :
    (flushOrigin origin next).run db = (.ok (), db.updateOrigin origin.id fun _ => next) := by
  have present : (db.origins.any fun other => other.id == origin.id) = true :=
    List.any_eq_true.mpr ⟨origin, stored.member, by simp⟩
  have noClash : ¬ (next.isActive = true ∧ (db.origins.any fun other =>
      other.applicationId == origin.applicationId && other.id != origin.id &&
        other.isActive) = true) := by
    rintro ⟨on, clash⟩
    obtain ⟨other, member, clash⟩ := List.any_eq_true.mp clash
    simp only [Bool.and_eq_true, beq_iff_eq, bne_iff_ne] at clash
    exact clash.1.2 (stored.oneActive (active on) other member clash.1.1 clash.2)
  unfold flushOrigin
  split_ifs with unchanged
  · have rows : db.updateOrigin origin.id id = db.updateOrigin origin.id fun _ => next :=
      Database.updateOrigin_congr stored.keyed stored.member unchanged.symm
    rw [← rows]
    simp [Database.updateOrigin, Program.run]
  · have rows : db.updateOrigin origin.id (origin.patch next) =
        db.updateOrigin origin.id fun _ => next :=
      Database.updateOrigin_congr stored.keyed stored.member faithful
    rw [Program.run_write, if_neg noClash, if_pos present, rows]
    rfl

/-- The status is 200 and the body is the verification token. -/
def Probe.Proves (probe : Probe) (origin : VerifiedOrigin) : Prop :=
  probe.status = 200 ∧ probe.body ≠ "" ∧ origin.verificationToken = some probe.body

/-- The answers that `verify_origin` handles: what it compares is ASCII, a probe that fails does so
with a failure of its own, and its message can be stored. -/
def Handled (backend : Backend) (origin : VerifiedOrigin) : Except Raised Probe → Prop
  | .ok probe => probe.status = 200 → origin.verificationToken.getD "" ≠ "" →
      isAscii probe.body = true ∧ isAscii (origin.verificationToken.getD "") = true
  | .error (.failed failed) => backend.stores failed.message = true
  | .error _ => False

/-- The origin is verified exactly if its answer proves it; else it is recorded as failed,
switched off, with the reason that is raised. -/
def Recorded (answer : Except Raised Probe) (origin : VerifiedOrigin) (db : Database)
    (ending : Ending) (after : Database) : Prop :=
  (∃ probe verified, answer = .ok probe ∧ probe.Proves origin ∧ ending = .ok verified ∧
    verified.status = .verified ∧ after = db.updateOrigin origin.id fun _ => verified) ∨
  (¬ ∃ probe, answer = .ok probe ∧ probe.Proves origin) ∧
    ∃ failed recorded, ending = .error (.failed failed) ∧ recorded.status = .failed ∧
      recorded.isActive = false ∧ recorded.lastErrorCode = some failed.code.value ∧
      recorded.lastErrorMessage = some failed.message ∧
      after = db.updateOrigin origin.id fun _ => recorded

variable (now) in
theorem recordOriginVerification_verified (stored : Stored backend db origin) :
    ∃ verified, (recordOriginVerification origin none now).run db =
        (.ok verified, db.updateOrigin origin.id fun _ => verified) ∧
      verified.status = .verified := by
  refine ⟨{ origin with
    lastCheckedAt := some now
    status := .verified
    verifiedAt := some now
    lastErrorCode := none
    lastErrorMessage := none }, ?_, rfl⟩
  rw [recordOriginVerification, Program.run_bind, flushOrigin_run stored]
  · rfl
  · simp [VerifiedOrigin.patch]
  · exact id

variable (now) in
theorem recordOriginVerification_failed (stored : Stored backend db origin)
    (code message : String) :
    ∃ recorded, (recordOriginVerification origin (some (some code, some message)) now).run db =
        (.ok recorded, db.updateOrigin origin.id fun _ => recorded) ∧
      recorded.status = .failed ∧ recorded.isActive = false ∧
      recorded.lastErrorCode = some code ∧ recorded.lastErrorMessage = some message := by
  refine ⟨{ origin with
    lastCheckedAt := some now
    status := .failed
    lastErrorCode := some code
    lastErrorMessage := some message
    isActive := false }, ?_, rfl, rfl, rfl, rfl⟩
  rw [recordOriginVerification, Program.run_bind, flushOrigin_run stored]
  · rfl
  · simp [VerifiedOrigin.patch]
  · exact Bool.noConfusion

theorem Backend.stores_append (first second : String) :
    backend.stores (first ++ second) = (backend.stores first && backend.stores second) := by
  cases backend with
  | sqlite => rfl
  | postgresql => simp [Backend.stores]

theorem Backend.stores_toString (number : Nat) : backend.stores (toString number) = true := by
  cases backend with
  | sqlite => rfl
  | postgresql =>
      have digits := Nat.isDigit_of_mem_toDigits (b := 10) (c := '\x00') (n := number)
        (by decide) (by decide)
      have absent : '\x00' ∉ Nat.toDigits 10 number := fun inside => absurd (digits inside) (by decide)
      simpa [Backend.stores, Nat.toString_eq_ofList_toDigits] using absent

/-- A text of the code holds no NUL. -/
theorem Backend.stores_constant {text : String} (clean : text.toList.contains '\x00' = false) :
    backend.stores text = true := by
  cases backend with
  | sqlite => rfl
  | postgresql => rw [Backend.stores, clean, Bool.not_false]

theorem unexpectedStatus_stored (host : backend.stores origin.host = true) (status : Nat) :
    backend.stores (unexpectedStatus origin status).message = true := by
  simp only [unexpectedStatus, Backend.stores_append, Bool.and_eq_true, host,
    Backend.stores_toString, and_true]
  refine ⟨⟨⟨⟨?_, ?_⟩, ?_⟩, ?_⟩, ?_⟩ <;> exact Backend.stores_constant (by decide)

theorem tokenMismatch_stored (host : backend.stores origin.host = true) :
    backend.stores (tokenMismatch origin).message = true := by
  simp only [tokenMismatch, Backend.stores_append, Bool.and_eq_true, host, and_true]
  refine ⟨⟨⟨⟨?_, ?_⟩, ?_⟩, ?_⟩, ?_⟩ <;> exact Backend.stores_constant (by decide)

/-- A handled answer is compared, and the reason of a refusal can be stored. -/
theorem compareToken_of_handled {probe : Probe} (host : backend.stores origin.host = true)
    (handled : Handled backend origin (.ok probe)) :
    (probe.Proves origin ∧ compareToken origin probe = .ok ()) ∨
      (¬ probe.Proves origin ∧ ∃ failed, compareToken origin probe = .error (.failed failed) ∧
        backend.stores failed.message = true) := by
  unfold compareToken
  simp only
  split_ifs with status missing
  · exact .inr ⟨fun proves => status proves.1, _, rfl, unexpectedStatus_stored host _⟩
  · refine .inr ⟨?_, _, rfl, tokenMismatch_stored host⟩
    rintro ⟨-, nonempty, token⟩
    exact nonempty (by simpa [token] using missing)
  · obtain ⟨body, token⟩ := handled (not_not.mp status) missing
    rw [compareDigest, body, token]
    by_cases same : probe.body = origin.verificationToken.getD ""
    · left
      refine ⟨⟨not_not.mp status, by rwa [same], ?_⟩, by simp [same]⟩
      cases held : origin.verificationToken with
      | none => simp [held] at missing
      | some token => simp [same, held]
    · right
      refine ⟨?_, tokenMismatch origin, by simp [same], tokenMismatch_stored host⟩
      rintro ⟨-, -, token⟩
      exact same (by rw [token]; rfl)

/-- Any other answer breaks the comparison. -/
theorem compareToken_of_not_handled {probe : Probe}
    (unhandled : ¬ Handled backend origin (.ok probe)) :
    compareToken origin probe = .error .typeError := by
  simp only [Handled, Classical.not_imp] at unhandled
  obtain ⟨status, present, foreign⟩ := unhandled
  have raises : compareDigest probe.body (origin.verificationToken.getD "") = none := by
    rw [compareDigest, if_neg]
    simpa using foreign
  simp [compareToken, status, present, raises]

variable (now) in
theorem verifyOrigin_verified (stored : Stored backend db origin)
    (proved : prove network allowPrivate timeout origin = .ok ()) :
    ∃ verified, (verifyOrigin backend network allowPrivate timeout origin now).run db =
        (.ok (.ok verified), db.updateOrigin origin.id fun _ => verified) ∧
      verified.status = .verified := by
  obtain ⟨verified, ran, status⟩ := recordOriginVerification_verified now stored
  refine ⟨verified, ?_, status⟩
  rw [verifyOrigin, proved]
  simp only
  rw [Program.run_bind, ran]
  rfl

variable (now) in
theorem verifyOrigin_failed (stored : Stored backend db origin) {failed : Failed}
    (refused : prove network allowPrivate timeout origin = .error (.failed failed))
    (storable : backend.stores failed.message = true) :
    ∃ recorded, (verifyOrigin backend network allowPrivate timeout origin now).run db =
        (.ok (.error (.failed failed)), db.updateOrigin origin.id fun _ => recorded) ∧
      recorded.status = .failed ∧ recorded.isActive = false ∧
      recorded.lastErrorCode = some failed.code.value ∧
      recorded.lastErrorMessage = some failed.message := by
  obtain ⟨recorded, ran, outcome⟩ :=
    recordOriginVerification_failed now stored failed.code.value failed.message
  refine ⟨recorded, ?_, outcome⟩
  rw [verifyOrigin, refused]
  simp only [storable, if_true]
  rw [Program.run_bind, ran]
  rfl

variable (now db) in
/-- An answer that is not handled leaves the origin as it was. -/
theorem verifyOrigin_unhandled
    (unhandled : ¬ Handled backend origin
      (fetchToken network origin.host origin.port origin.scheme timeout allowPrivate)) :
    ∃ raised, (∀ failed, raised ≠ .failed failed) ∧
      (verifyOrigin backend network allowPrivate timeout origin now).run db =
        (.ok (.error raised), db) := by
  cases answer : fetchToken network origin.host origin.port origin.scheme timeout allowPrivate with
  | ok probe =>
      rw [answer] at unhandled
      refine ⟨.typeError, by simp, ?_⟩
      rw [verifyOrigin, prove, answer]
      simp only [compareToken_of_not_handled unhandled]
      rfl
  | error raised =>
      rw [answer] at unhandled
      by_cases failure : ∃ failed, raised = .failed failed
      · obtain ⟨failed, rfl⟩ := failure
        have refused : backend.stores failed.message = false := by simpa [Handled] using unhandled
        refine ⟨.dataError, by simp, ?_⟩
        rw [verifyOrigin, prove, answer]
        simp [refused]
      · refine ⟨raised, fun failed same => failure ⟨failed, same⟩, ?_⟩
        rw [verifyOrigin, prove, answer]
        cases raised with
        | failed failed => exact absurd ⟨failed, rfl⟩ failure
        | _ => rfl

theorem not_recorded {answer : Except Raised Probe} {raised : Raised} {after : Database}
    (other : ∀ failed, raised ≠ .failed failed) :
    ¬ Recorded answer origin db (.error raised) after := by
  rintro (⟨_, _, _, _, ended, _⟩ | ⟨_, failed, _, ended, _⟩)
  · cases ended
  · exact other failed (Except.error.inj ended)

variable (network allowPrivate timeout now) in
/-- The outcome is recorded exactly if the answer is handled. -/
theorem verify_origin_records_iff (stored : Stored backend db origin) :
    ∃ ending after, (verifyOrigin backend network allowPrivate timeout origin now).run db =
        (.ok ending, after) ∧
      (Recorded (fetchToken network origin.host origin.port origin.scheme timeout allowPrivate)
          origin db ending after ↔
        Handled backend origin
          (fetchToken network origin.host origin.port origin.scheme timeout allowPrivate)) := by
  by_cases handled : Handled backend origin
    (fetchToken network origin.host origin.port origin.scheme timeout allowPrivate)
  · simp only [handled, iff_true]
    cases answer : fetchToken network origin.host origin.port origin.scheme timeout
      allowPrivate with
    | ok probe =>
        rw [answer] at handled
        have proved : prove network allowPrivate timeout origin = compareToken origin probe := by
          rw [prove, answer]
        rcases compareToken_of_handled stored.host handled with
          ⟨proves, compared⟩ | ⟨refuted, failed, compared, storable⟩
        · obtain ⟨verified, ran, status⟩ := verifyOrigin_verified now stored
            (proved.trans compared)
          exact ⟨_, _, ran, .inl ⟨probe, verified, rfl, proves, rfl, status, rfl⟩⟩
        · obtain ⟨recorded, ran, outcome⟩ := verifyOrigin_failed now stored
            (proved.trans compared) storable
          refine ⟨_, _, ran, .inr ⟨?_, failed, recorded, rfl, outcome.1, outcome.2.1,
            outcome.2.2.1, outcome.2.2.2, rfl⟩⟩
          rintro ⟨other, found, proves⟩
          cases found
          exact refuted proves
    | error raised =>
        rw [answer] at handled
        obtain ⟨failed, rfl⟩ : ∃ failed, raised = .failed failed := by
          cases raised with
          | failed failed => exact ⟨failed, rfl⟩
          | _ => exact handled.elim
        have refused : prove network allowPrivate timeout origin = .error (.failed failed) := by
          rw [prove, answer]
        obtain ⟨recorded, ran, outcome⟩ := verifyOrigin_failed now stored refused handled
        refine ⟨_, _, ran, .inr ⟨?_, failed, recorded, rfl, outcome.1, outcome.2.1,
          outcome.2.2.1, outcome.2.2.2, rfl⟩⟩
        rintro ⟨other, found, proves⟩
        cases found
  · obtain ⟨raised, which, ran⟩ := verifyOrigin_unhandled now db handled
    refine ⟨_, _, ran, ?_⟩
    simp only [handled, iff_false]
    exact not_recorded which

end Recording

/-! ## An origin in service -/

section Sample

def activeOrigin : VerifiedOrigin where
  id := 7
  applicationId := sampleApplication.id
  scheme := .https
  host := "app.example.com"
  port := 443
  hostHeader := .customer
  status := .verified
  isActive := true
  verificationToken := some "k3y"

def activeRows : Database := { applications := [sampleApplication], origins := [activeOrigin] }

theorem activeOrigin_stored (backend : Backend) : Stored backend activeRows activeOrigin where
  member := by simp [activeRows]
  keyed := by decide
  oneActive := by
    intro _ other member _ _
    rw [List.mem_singleton.mp member]
  host := Backend.stores_constant (by decide)

def publicAddress : SocketAddress where
  text := "93.184.216.34"
  ip := .v4 1572395042
  parses := by decide

/-- A server at one public address that answers with the given body. -/
def serving (body : List UInt8) : Network where
  lookup _ _ := .found [publicAddress]
  peer _ := { answer := .answered 200 body }

/-- Its name is looked up without an exception. -/
def probed (body : List UInt8) : ProbedNetwork where
  toNetwork := serving body

def servedBody (body : List UInt8) : Except Raised Probe :=
  fetchToken (probed body) activeOrigin.host activeOrigin.port activeOrigin.scheme "5" false

theorem verify_origin_records_token :
    ∃ ending after, (verifyOrigin .postgresql (probed [0x6B, 0x33, 0x79, 0x0A]) false "5"
        activeOrigin 10).run activeRows = (.ok ending, after) ∧
      Recorded (servedBody [0x6B, 0x33, 0x79, 0x0A]) activeOrigin activeRows ending after := by
  obtain ⟨ending, after, ran, recorded⟩ := verify_origin_records_iff
    (probed [0x6B, 0x33, 0x79, 0x0A]) false "5" 10 (activeOrigin_stored .postgresql)
  refine ⟨ending, after, ran, recorded.mpr ?_⟩
  have answer : servedBody [0x6B, 0x33, 0x79, 0x0A] = .ok ⟨"93.184.216.34", 200, "k3y"⟩ := by decide
  rw [← servedBody, answer]
  exact fun _ _ => ⟨by decide, by decide⟩

/-- A body that is not ASCII is compared with an exception, and the origin stays active. -/
theorem verify_origin_unrecorded :
    ¬ ∃ ending after, (verifyOrigin .postgresql (probed [0xC3, 0xA9]) false "5"
        activeOrigin 10).run activeRows = (.ok ending, after) ∧
      Recorded (servedBody [0xC3, 0xA9]) activeOrigin activeRows ending after := by
  have answer : servedBody [0xC3, 0xA9] = .ok ⟨"93.184.216.34", 200, "é"⟩ := by decide
  have unhandled : ¬ Handled .postgresql activeOrigin (servedBody [0xC3, 0xA9]) := by
    rw [answer]
    intro handled
    exact absurd (handled rfl (by decide)).1 (by decide)
  rintro ⟨ending, after, ran, recorded⟩
  obtain ⟨raised, which, stopped⟩ := verifyOrigin_unhandled 10 activeRows unhandled
  rw [stopped] at ran
  cases ran
  exact not_recorded which recorded

end Sample

end CustomDomain.OriginVerification
