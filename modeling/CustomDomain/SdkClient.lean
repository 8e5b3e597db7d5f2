import CustomDomain.DoubleRounding
import CustomDomain.JavaScript
import CustomDomain.JsonText
import CustomDomain.PythonText

/-!
# Retries of the SDK clients

`Client._request` of the Python package and `#request` of the TypeScript package:
what they send again, when they stop, and how a call ends.  `httpx` and `fetch` are
any sequence of failures and answers.
-/

namespace CustomDomain.SdkClient

open JsonText PythonText

/-! ## Calls -/

inductive Method where
  | get
  | post
  | delete
  deriving DecidableEq

/-- The paths of the v1 API. -/
inductive Endpoint where
  | domains
  | domain (id : String)
  | checks (id : String)
  | connect (id : String)
  | connectSessions (id : String)
  | connectSession (id sessionId : String)
  | webhooks
  | webhook (id : String)
  | rotate (id : String)
  | deliveries (id : String)
  | replayDelivery (id deliveryId : String)
  | replay (id : String)
  deriving DecidableEq

/-- A request as `_request` and `#request` are given it. -/
structure Call where
  method : Method
  endpoint : Endpoint
  idempotencyKey : Option String := none
  retryable : Bool

/-- The methods of the clients. -/
inductive Operation where
  | createDomain (idempotencyKey : Option String)
  | getDomain (id : String)
  | listDomains
  | requestRecheck (id : String)
  | connectUrl (id : String)
  | connectSession (id : String)
  | revokeConnectSession (id sessionId : String)
  | deleteDomain (id : String)
  | createWebhook
  | listWebhooks
  | revokeWebhook (id : String)
  | rotateWebhookSecret (id : String)
  | listDeliveries (id : String)
  | replayDelivery (id deliveryId : String)
  | replaySince (id : String)

/-- The calls of the methods; `create` is the call of `create_domain`. -/
def Operation.callWith (create : Option String → Call) : Operation → Call
  | .createDomain idempotencyKey => create idempotencyKey
  | .getDomain id => { method := .get, endpoint := .domain id, retryable := true }
  | .listDomains => { method := .get, endpoint := .domains, retryable := true }
  | .requestRecheck id => { method := .post, endpoint := .checks id, retryable := false }
  | .connectUrl id => { method := .post, endpoint := .connect id, retryable := false }
  | .connectSession id => { method := .post, endpoint := .connectSessions id, retryable := false }
  | .revokeConnectSession id sessionId =>
      { method := .delete, endpoint := .connectSession id sessionId, retryable := true }
  | .deleteDomain id => { method := .delete, endpoint := .domain id, retryable := true }
  | .createWebhook => { method := .post, endpoint := .webhooks, retryable := false }
  | .listWebhooks => { method := .get, endpoint := .webhooks, retryable := true }
  | .revokeWebhook id => { method := .delete, endpoint := .webhook id, retryable := true }
  | .rotateWebhookSecret id => { method := .post, endpoint := .rotate id, retryable := false }
  | .listDeliveries id => { method := .get, endpoint := .deliveries id, retryable := true }
  | .replayDelivery id deliveryId =>
      { method := .post, endpoint := .replayDelivery id deliveryId, retryable := true }
  | .replaySince id => { method := .post, endpoint := .replay id, retryable := true }

/-! ## Errors -/

/-- The classes of `errors.py` and `errors.ts` below `ApiError`. -/
inductive ErrorClass where
  | authentication
  | permissionDenied
  | credentialReadOnly
  | notFound
  | conflict
  | domainConnectUnavailable
  | connectPageUnavailable
  | validation
  | rateLimited
  | server
  | api
  deriving DecidableEq

/-- The class that `error_for` and `errorFor` choose. -/
def errorClass (status : Nat) (code : Value) : ErrorClass :=
  let isCode (text : String) : Bool := match code with
    | .str found => found = text
    | _ => false
  if status = 401 then .authentication
  else if status = 403 then
    if isCode "credential_read_only" then .credentialReadOnly else .permissionDenied
  else if status = 404 then .notFound
  else if status = 409 then
    if isCode "domain_connect_unavailable" then .domainConnectUnavailable
    else if isCode "connect_page_unavailable" then .connectPageUnavailable
    else .conflict
  else if status = 422 then .validation
  else if status = 429 then .rateLimited
  else if 500 ≤ status then .server
  else .api

theorem errorClass_rateLimited {status : Nat} {code : Value} :
    errorClass status code = .rateLimited ↔ status = 429 := by
  unfold errorClass
  simp only
  split_ifs <;> simp_all

/-- What one attempt comes to: a failure of the transport, another exception of the
sending, or an answer. -/
inductive Exchange (Answer : Type) where
  | failed (reason : String)
  | thrown (reason : String)
  | answered (answer : Answer)

/-- How a call ends: it returns, it raises an error of the SDK, or another one escapes. -/
inductive Ending (Body Error Escape : Type) where
  | returned (body : Body)
  | raised (error : Error)
  | escaped (escape : Escape)

/-- How often the request was sent, and how the call ended. -/
structure Run (Body Error Escape : Type) where
  sends : Nat
  ending : Ending Body Error Escape

section Safety

variable {Answer Body Error Escape : Type}

/-- Whether an attempt ends with a status in the range. -/
def Exchange.Within (statusOf : Answer → Nat) (first last : Nat) : Exchange Answer → Prop
  | .failed _ | .thrown _ => False
  | .answered answer => first ≤ statusOf answer ∧ statusOf answer ≤ last

/-- An answer of success. -/
def Exchange.Succeeds (statusOf : Answer → Nat) (exchange : Exchange Answer) : Prop :=
  exchange.Within statusOf 200 299

/-- An answer that refuses the request for good. -/
def Exchange.Refuses (statusOf : Answer → Nat) (exchange : Exchange Answer) : Prop :=
  exchange.Within statusOf 400 499 ∧ ¬ exchange.Within statusOf 429 429

/-- A create carries a key. -/
def Call.Keyed (call : Call) : Prop :=
  call.method = .post → call.endpoint = .domains → call.idempotencyKey.getD "" ≠ ""

/-- A run that retries safely; `Returns` says which body an answer of success is for. -/
structure SafeRun (statusOf : Answer → Nat) (Returns : Answer → Body → Prop) (call : Call)
    (maxRetries : Nat) (exchanges : Nat → Exchange Answer) (run : Run Body Error Escape) : Prop where
  sent : 1 ≤ run.sends
  bounded : run.sends ≤ maxRetries + 1
  once : call.retryable = false → run.sends = 1
  keyed : 1 < run.sends → call.Keyed
  goesOn : ∀ attempt, attempt + 1 < run.sends →
    ¬ (exchanges attempt).Succeeds statusOf ∧ ¬ (exchanges attempt).Refuses statusOf
  succeeds : ∀ answer, exchanges (run.sends - 1) = .answered answer →
    200 ≤ statusOf answer → statusOf answer ≤ 299 →
    ∃ body, run.ending = .returned body ∧ Returns answer body
  fails : ¬ (exchanges (run.sends - 1)).Succeeds statusOf → ∃ error, run.ending = .raised error

/-- What a loop guarantees from an attempt on, with `left` attempts to go. -/
structure Settles (statusOf : Answer → Nat) (Returns : Answer → Body → Prop)
    (exchanges : Nat → Exchange Answer) (attempt left : Nat) (run : Run Body Error Escape) :
    Prop where
  low : attempt + 1 ≤ run.sends
  high : run.sends ≤ attempt + left
  goesOn : ∀ index, attempt ≤ index → index + 1 < run.sends →
    ¬ (exchanges index).Succeeds statusOf ∧ ¬ (exchanges index).Refuses statusOf
  succeeds : ∀ answer, exchanges (run.sends - 1) = .answered answer →
    200 ≤ statusOf answer → statusOf answer ≤ 299 →
    ∃ body, run.ending = .returned body ∧ Returns answer body
  fails : ¬ (exchanges (run.sends - 1)).Succeeds statusOf → ∃ error, run.ending = .raised error

namespace Settles

variable {statusOf : Answer → Nat} {Returns : Answer → Body → Prop}
variable {exchanges : Nat → Exchange Answer} {attempt left : Nat}

/-- The loop ends here with a success. -/
theorem returned {answer : Answer} {body : Body} (here : exchanges attempt = .answered answer)
    (success : 200 ≤ statusOf answer ∧ statusOf answer ≤ 299) (returns : Returns answer body) :
    Settles statusOf Returns exchanges attempt (left + 1)
      (⟨attempt + 1, .returned body⟩ : Run Body Error Escape) where
  low := le_rfl
  high := by simp
  goesOn index from_ before := by simp only at before; omega
  succeeds found same _ _ := by
    rw [Nat.add_sub_cancel, here] at same
    cases same
    exact ⟨body, rfl, returns⟩
  fails failed := by
    rw [Nat.add_sub_cancel, here] at failed
    exact absurd success failed

/-- The loop ends here with an error of the SDK. -/
theorem raised {error : Error} (failed : ¬ (exchanges attempt).Succeeds statusOf) :
    Settles statusOf Returns exchanges attempt (left + 1)
      (⟨attempt + 1, .raised error⟩ : Run Body Error Escape) where
  low := le_rfl
  high := by simp
  goesOn index from_ before := by simp only at before; omega
  succeeds answer same above below := by
    rw [Nat.add_sub_cancel] at same
    rw [same] at failed
    exact absurd ⟨above, below⟩ failed
  fails _ := ⟨error, rfl⟩

/-- The loop goes on after an attempt that it may repeat. -/
theorem next {run : Run Body Error Escape}
    (repeated : ¬ (exchanges attempt).Succeeds statusOf ∧ ¬ (exchanges attempt).Refuses statusOf)
    (later : Settles statusOf Returns exchanges (attempt + 1) left run) :
    Settles statusOf Returns exchanges attempt (left + 1) run where
  low := by have := later.low; omega
  high := by have := later.high; omega
  goesOn index from_ before := by
    rcases from_.eq_or_lt with rfl | after
    · exact repeated
    · exact later.goesOn index after before
  succeeds := later.succeeds
  fails := later.fails

end Settles

/-- A whole run from what its loop guarantees. -/
theorem SafeRun.of_settles {statusOf : Answer → Nat} {Returns : Answer → Body → Prop}
    {call : Call} {maxRetries : Nat} {exchanges : Nat → Exchange Answer}
    {run : Run Body Error Escape}
    (settles : Settles statusOf Returns exchanges 0 (if call.retryable then maxRetries + 1 else 1)
      run) (keyed : 1 < run.sends → call.Keyed) :
    SafeRun statusOf Returns call maxRetries exchanges run where
  sent := by simpa using settles.low
  bounded := by
    have high := settles.high
    split_ifs at high <;> omega
  once single := by
    have low := settles.low
    have high := settles.high
    simp only [single, Bool.false_eq_true, if_false] at high
    omega
  keyed := keyed
  goesOn attempt := settles.goesOn attempt (Nat.zero_le _)
  succeeds := settles.succeeds
  fails := settles.fails

end Safety

/-! ## The Python client -/

namespace Python

/-- What `response.json()` comes to: a `ValueError`, a `RecursionError`, or a value. -/
inductive Document where
  | invalid
  | tooDeep
  | read (value : Value)

/-- The exceptions that are not the SDK's. -/
inductive Escape where
  | attributeError
  | valueError
  | unicodeError
  | recursionError
  | overflowError
  | assertionError
  | other (reason : String)
  deriving DecidableEq

/-- An answer; `text` raises where the decoder of the answer's charset does. -/
structure Response where
  status : Nat
  retryAfter : Option String
  document : Document
  text : Except Escape String

structure ApiError where
  kind : ErrorClass
  status : Nat
  code : Value
  message : Value
  details : Value
  retryAfter : Nat

inductive SdkError where
  | api (error : ApiError)
  | transport (message : String)

/-- `bool` of a value. -/
def truthy : Value → Bool
  | .null => false
  | .bool value => value
  | .number true value => value ≠ 0
  | .number false value => DoubleRounding.toDouble value ≠ 0
  | .constant _ => true
  | .str text => text ≠ ""
  | .arr items => !items.isEmpty
  | .obj fields => !fields.isEmpty

/-- `retry_after or 1`. -/
def orOne : Option Nat → Nat
  | none => 1
  | some 0 => 1
  | some (count + 1) => count + 1

/-- `error_for`. -/
def errorFor (status : Nat) (code message : Value) (details : Option Value)
    (retryAfter : Option Nat) : ApiError where
  kind := errorClass status code
  status := status
  code := code
  message := message
  details := (details.filter truthy).getD (.obj [])
  retryAfter := orOne retryAfter

/-- `response.json().get("error", {})`, and `{}` where the body is not JSON. -/
def envelope : Document → Except Escape Value
  | .invalid => .ok (.obj [])
  | .tooDeep => .error .recursionError
  | .read (.obj fields) => .ok ((member? "error" fields).getD (.obj []))
  | .read _ => .error .attributeError

/-- The seconds of the header `Retry-After`. -/
def retrySeconds : Option String → Except Escape (Option Nat)
  | none => .ok none
  | some text =>
      if isUnicodeDigit text then
        match intOfDigits text with
        | some seconds => .ok (some seconds)
        | none => .error .valueError
      else .ok none

/-- `_error`: the default of `message` is evaluated whether or not it is used. -/
def errorOf (response : Response) : Except Escape ApiError :=
  match envelope response.document with
  | .error escape => .error escape
  | .ok (.obj fields) =>
      match response.text with
      | .error escape => .error escape
      | .ok text =>
          match retrySeconds response.retryAfter with
          | .error escape => .error escape
          | .ok retryAfter =>
              .ok (errorFor response.status ((member? "code" fields).getD (.str "http_error"))
                ((member? "message" fields).getD (.str (String.ofList (text.toList.take 200))))
                (member? "details" fields) retryAfter)
  | .ok _ => .error .attributeError

section Loop

-- The `sleep` of the client is false where it raises an `OverflowError`.
variable (sleep : ℚ → Bool) (retryable : Bool) (exchanges : Nat → Exchange Response)

/-- The loop of `_request`, with `left` attempts to go. -/
def attempts : (left attempt : Nat) → (delay : ℚ) → (lastError : Option SdkError) →
    Run Response SdkError Escape
  | 0, attempt, _, none => ⟨attempt, .escaped .assertionError⟩
  | 0, attempt, _, some lastError => ⟨attempt, .raised lastError⟩
  | left + 1, attempt, delay, lastError =>
      match exchanges attempt with
      | .failed reason =>
          if left = 0 then attempts left (attempt + 1) delay (some (.transport reason))
          else if sleep delay then
            attempts left (attempt + 1) (2 * delay) (some (.transport reason))
          else ⟨attempt + 1, .escaped .overflowError⟩
      | .thrown reason => ⟨attempt + 1, .escaped (.other reason)⟩
      | .answered response =>
          if response.status < 400 then ⟨attempt + 1, .returned response⟩
          else
            match errorOf response with
            | .error escape => ⟨attempt + 1, .escaped escape⟩
            | .ok error =>
                if retryable = false ∨ left = 0 then ⟨attempt + 1, .raised (.api error)⟩
                else if error.kind = .rateLimited then
                  if sleep error.retryAfter then attempts left (attempt + 1) delay lastError
                  else ⟨attempt + 1, .escaped .overflowError⟩
                else if response.status < 500 then ⟨attempt + 1, .raised (.api error)⟩
                else if sleep delay then
                  attempts left (attempt + 1) (2 * delay) (some (.api error))
                else ⟨attempt + 1, .escaped .overflowError⟩

end Loop

/-- `httpx` encodes the values of the headers as ASCII. -/
def Encodable (call : Call) : Prop := isAscii (call.idempotencyKey.getD "") = true

instance (call : Call) : Decidable (Encodable call) :=
  inferInstanceAs (Decidable (isAscii (call.idempotencyKey.getD "") = true))

/-- `Client._request`: nothing is sent where the header cannot be encoded. -/
def request (sleep : ℚ → Bool) (maxRetries : Nat) (call : Call)
    (exchanges : Nat → Exchange Response) : Run Response SdkError Escape :=
  if Encodable call then
    attempts sleep call.retryable exchanges (if call.retryable then maxRetries + 1 else 1) 0
      (1 / 2) none
  else ⟨0, .escaped .unicodeError⟩

/-- The call of `create_domain`: an empty key is retried, but not sent. -/
def createDomain (idempotencyKey : Option String) : Call where
  method := .post
  endpoint := .domains
  idempotencyKey := idempotencyKey.filter (· ≠ "")
  retryable := idempotencyKey.isSome

def call (operation : Operation) : Call := operation.callWith createDomain

/-- An answer of success is returned as it is. -/
def Returns (response body : Response) : Prop := body = response

/-- The call is repeated if it may be. -/
def Retries (maxRetries : Nat) (call : Call) : Prop := call.retryable = true ∧ 0 < maxRetries

/-- Every pause between attempts can be slept. -/
def Patient (sleep : ℚ → Bool) (maxRetries : Nat) : Prop :=
  ∀ pause < maxRetries, sleep (2 ^ pause / 2) = true

/-- The body of an error is not JSON, or an object whose `error` is an object or missing. -/
def Document.IsEnvelope : Document → Prop
  | .invalid => True
  | .read (.obj fields) =>
      member? "error" fields = none ∨ ∃ body, member? "error" fields = some (.obj body)
  | _ => False

/-- The decoder of the answer's charset reads the body. -/
def Decodable (text : Except Escape String) : Prop := ∃ found, text = .ok found

/-- A `Retry-After` of digits is a number to `int`. -/
def ReadableDelay (retryAfter : Option String) : Prop :=
  ∀ text, retryAfter = some text → isUnicodeDigit text = true → (intOfDigits text).isSome = true

/-- The seconds that a rate limit asks to wait for. -/
def pauseSeconds (retryAfter : Option String) : Nat :=
  match retrySeconds retryAfter with
  | .ok found => orOne found
  | .error _ => 1

/-- The failures and answers that `_request` handles in a call. -/
def Handled (sleep : ℚ → Bool) (maxRetries : Nat) (call : Call) : Exchange Response → Prop
  | .failed _ => Retries maxRetries call → call.Keyed ∧ Patient sleep maxRetries
  | .thrown _ => False
  | .answered response =>
      (200 ≤ response.status ∧ response.status ≤ 299) ∨
      (400 ≤ response.status ∧ response.document.IsEnvelope ∧ Decodable response.text ∧
        ReadableDelay response.retryAfter ∧
        (response.status = 429 → Retries maxRetries call →
          call.Keyed ∧ sleep (pauseSeconds response.retryAfter) = true) ∧
        (500 ≤ response.status → Retries maxRetries call →
          call.Keyed ∧ Patient sleep maxRetries))

section Errors

variable {response : Response}

theorem retrySeconds_ok_iff (retryAfter : Option String) :
    ReadableDelay retryAfter ↔ ∃ seconds, retrySeconds retryAfter = .ok seconds := by
  cases retryAfter with
  | none => simp [ReadableDelay, retrySeconds]
  | some text =>
      by_cases digits : isUnicodeDigit text = true
      · cases parsed : intOfDigits text <;> simp [ReadableDelay, retrySeconds, digits, parsed]
      · simp [ReadableDelay, retrySeconds, digits]

theorem envelope_ok_iff (document : Document) :
    document.IsEnvelope ↔ ∃ fields, envelope document = .ok (.obj fields) := by
  cases document with
  | invalid => simp [Document.IsEnvelope, envelope]
  | tooDeep => simp [Document.IsEnvelope, envelope]
  | read value =>
      cases value with
      | obj fields =>
          cases found : member? "error" fields <;> simp [Document.IsEnvelope, envelope, found]
      | _ => simp [Document.IsEnvelope, envelope]

/-- The error of an answer can be made exactly if its body, its text and its header are as
expected. -/
theorem errorOf_ok_iff :
    (response.document.IsEnvelope ∧ Decodable response.text ∧ ReadableDelay response.retryAfter) ↔
      ∃ error, errorOf response = .ok error := by
  rw [envelope_ok_iff, retrySeconds_ok_iff]
  constructor
  · rintro ⟨⟨fields, body⟩, ⟨text, decoded⟩, seconds, header⟩
    simp [errorOf, body, decoded, header]
  · rintro ⟨error, made⟩
    unfold errorOf at made
    split at made
    next => cases made
    next fields body =>
      split at made
      next => cases made
      next text decoded =>
        split at made
        next => cases made
        next seconds header => exact ⟨⟨fields, body⟩, ⟨text, decoded⟩, seconds, header⟩
    next => cases made

/-- The class of the error, and the seconds it asks to wait for. -/
theorem errorOf_facts {error : ApiError} (made : errorOf response = .ok error) :
    (error.kind = .rateLimited ↔ response.status = 429) ∧
      error.retryAfter = pauseSeconds response.retryAfter := by
  unfold errorOf at made
  split at made
  next => cases made
  next fields body =>
    split at made
    next => cases made
    next text decoded =>
      split at made
      next => cases made
      next seconds header =>
        cases made
        refine ⟨errorClass_rateLimited, ?_⟩
        rw [errorFor, pauseSeconds, header]
  next => cases made

end Errors

section Proof

variable {sleep : ℚ → Bool} {maxRetries : Nat} {call : Call} {exchanges : Nat → Exchange Response}

/-- The pauses of a loop that is at the given attempt. -/
theorem sleep_of_patient {left attempt : Nat} {delay : ℚ} (patient : Patient sleep maxRetries)
    (reach : attempt + (left + 1) ≤ maxRetries) (pauses : ∃ pause ≤ attempt, delay = 2 ^ pause / 2) :
    sleep delay = true ∧ ∃ pause ≤ attempt + 1, 2 * delay = 2 ^ pause / 2 := by
  obtain ⟨pause, early, rfl⟩ := pauses
  refine ⟨patient pause (by omega), pause + 1, by omega, ?_⟩
  rw [pow_succ]
  ring

theorem attempts_settles (handled : ∀ attempt, Handled sleep maxRetries call (exchanges attempt))
    (left attempt : Nat) (delay : ℚ) (lastError : Option SdkError)
    (reach : left = 0 ∨ (call.retryable = true ∧ attempt + left ≤ maxRetries))
    (pauses : ∃ pause ≤ attempt, delay = 2 ^ pause / 2) :
    Settles Response.status Returns exchanges attempt (left + 1)
      (attempts sleep call.retryable exchanges (left + 1) attempt delay lastError) := by
  induction left generalizing attempt delay lastError with
  | zero =>
      have here := handled attempt
      rw [attempts]
      cases found : exchanges attempt with
      | failed reason =>
          simp only [if_true, attempts]
          exact .raised (by rw [found]; exact id)
      | thrown reason =>
          rw [found] at here
          exact here.elim
      | answered response =>
          rw [found] at here
          simp only [or_true, if_true]
          rcases here with success | ⟨high, body, text, header, -⟩
          · rw [if_pos (by omega)]
            exact .returned found success rfl
          · obtain ⟨error, made⟩ := errorOf_ok_iff.mp ⟨body, text, header⟩
            rw [if_neg (by omega), made]
            refine .raised ?_
            rw [found]
            exact fun range => absurd range.2 (by omega)
  | succ left ih =>
      obtain ⟨retryable, reach⟩ := reach.resolve_left (Nat.succ_ne_zero left)
      have retries : Retries maxRetries call := ⟨retryable, by omega⟩
      have reach' : left = 0 ∨ (call.retryable = true ∧ attempt + 1 + left ≤ maxRetries) :=
        .inr ⟨retryable, by omega⟩
      have here := handled attempt
      rw [attempts]
      cases found : exchanges attempt with
      | failed reason =>
          rw [found] at here
          obtain ⟨slept, pauses'⟩ := sleep_of_patient (here retries).2 reach pauses
          simp only [Nat.add_eq_zero_iff, one_ne_zero, and_false, if_false, slept, if_true]
          exact .next (by rw [found]; exact ⟨id, fun refuses => refuses.1⟩)
            (ih _ _ _ reach' pauses')
      | thrown reason =>
          rw [found] at here
          exact here.elim
      | answered response =>
          rw [found] at here
          have again : ¬ (call.retryable = false ∨ left + 1 = 0) := by simp [retryable]
          simp only [again, if_false]
          rcases here with success | ⟨high, body, text, header, limit, server⟩
          · rw [if_pos (by omega)]
            exact .returned found success rfl
          · obtain ⟨error, made⟩ := errorOf_ok_iff.mp ⟨body, text, header⟩
            obtain ⟨isLimit, seconds⟩ := errorOf_facts made
            have failed : ¬ (exchanges attempt).Succeeds Response.status := by
              rw [found]
              exact fun range => absurd range.2 (by omega)
            rw [if_neg (by omega), made]
            simp only [isLimit, seconds]
            split_ifs with limited slept refused slept
            · refine .next ⟨failed, ?_⟩ (ih _ _ _ reach' ?_)
              · rw [found]
                exact fun refuses => refuses.2 ⟨limited.ge, limited.le⟩
              · obtain ⟨pause, early, same⟩ := pauses
                exact ⟨pause, by omega, same⟩
            · exact absurd (limit limited retries).2 slept
            · exact .raised failed
            · obtain ⟨-, pauses'⟩ :=
                sleep_of_patient (server (not_lt.mp refused) retries).2 reach pauses
              refine .next ⟨failed, ?_⟩ (ih _ _ _ reach' pauses')
              rw [found]
              exact fun refuses => refused (Nat.lt_succ_of_le refuses.1.2)
            · obtain ⟨slept', -⟩ :=
                sleep_of_patient (server (not_lt.mp refused) retries).2 reach pauses
              exact absurd slept' slept

theorem request_settles (encodable : Encodable call)
    (handled : ∀ attempt, Handled sleep maxRetries call (exchanges attempt)) :
    Settles Response.status Returns exchanges 0 (if call.retryable then maxRetries + 1 else 1)
      (request sleep maxRetries call exchanges) := by
  have pauses : ∃ pause ≤ 0, (1 / 2 : ℚ) = 2 ^ pause / 2 := ⟨0, le_rfl, by norm_num⟩
  rw [request, if_pos encodable]
  split_ifs with retryable
  · exact attempts_settles handled maxRetries 0 _ none (.inr ⟨retryable, by omega⟩) pauses
  · exact attempts_settles handled 0 0 _ none (.inl rfl) pauses

/-- The first attempt was repeated, and what is repeated is handled with a key only. -/
theorem keyed_of_settles (handled : ∀ attempt, Handled sleep maxRetries call (exchanges attempt))
    {run : Run Response SdkError Escape}
    (settles : Settles Response.status Returns exchanges 0
      (if call.retryable then maxRetries + 1 else 1) run) (twice : 1 < run.sends) :
    call.Keyed := by
  have high := settles.high
  have retries : Retries maxRetries call := by
    split_ifs at high with retryable
    · exact ⟨retryable, by omega⟩
    · omega
  obtain ⟨failed, unrefused⟩ := settles.goesOn 0 le_rfl twice
  have first := handled 0
  cases found : exchanges 0 with
  | failed reason =>
      rw [found] at first
      exact (first retries).1
  | thrown reason =>
      rw [found] at first
      exact first.elim
  | answered response =>
      rw [found] at first failed unrefused
      rcases first with success | ⟨high, -, -, -, limit, server⟩
      · exact absurd success failed
      · by_cases limited : response.status = 429
        · exact (limit limited retries).1
        · refine (server ?_ retries).1
          by_contra below
          refine unrefused ⟨⟨high, by omega⟩, fun same => limited (le_antisymm same.2 same.1)⟩

section Converse

variable {retryable : Bool} {left attempt : Nat} {delay : ℚ} {lastError : Option SdkError}

variable (sleep retryable exchanges) in
/-- Every attempt sends. -/
theorem le_sends (left attempt : Nat) (delay : ℚ) (lastError : Option SdkError) :
    attempt + min left 1 ≤
      (attempts sleep retryable exchanges left attempt delay lastError).sends := by
  induction left generalizing attempt delay lastError with
  | zero => cases lastError <;> simp [attempts]
  | succ left ih =>
      have later (delay : ℚ) (lastError : Option SdkError) : attempt + min (left + 1) 1 ≤
          (attempts sleep retryable exchanges left (attempt + 1) delay lastError).sends := by
        have := ih (attempt + 1) delay lastError
        omega
      rw [attempts]
      split
      next => split_ifs <;> first | exact later _ _ | simp
      next => simp
      next response _ =>
        by_cases low : response.status < 400
        · simp [low]
        · rw [if_neg low]
          split
          next => simp
          next => split_ifs <;> first | exact later _ _ | simp

/-- What is repeated after a pause: no answer, or an error of the server. -/
def Repeats : Exchange Response → Prop
  | .failed _ => True
  | .thrown _ => False
  | .answered response => 500 ≤ response.status ∧ ∃ error, errorOf response = .ok error

variable (sleep) in
theorem attempts_repeated {exchange : Exchange Response} (repeats : Repeats exchange)
    (left attempt : Nat) (delay : ℚ) (lastError : Option SdkError) :
    ∃ error, attempts sleep true (fun _ => exchange) (left + 2) attempt delay lastError =
      if sleep delay then
        attempts sleep true (fun _ => exchange) (left + 1) (attempt + 1) (2 * delay) (some error)
      else ⟨attempt + 1, .escaped .overflowError⟩ := by
  cases exchange with
  | failed reason =>
      refine ⟨.transport reason, ?_⟩
      rw [attempts]
      simp
  | thrown reason => exact repeats.elim
  | answered response =>
      obtain ⟨server, error, made⟩ := repeats
      refine ⟨.api error, ?_⟩
      have other : ¬ error.kind = .rateLimited := by
        rw [(errorOf_facts made).1]
        omega
      rw [attempts]
      simp only
      rw [if_neg (by omega), made]
      simp only [other, if_false, Nat.add_eq_zero_iff, one_ne_zero, and_false, or_false,
        Bool.true_eq_false]
      rw [if_neg (by omega)]

/-- A pause that cannot be slept is reached at last. -/
theorem attempts_escapes {exchange : Exchange Response} (repeats : Repeats exchange)
    (left attempt : Nat) {pause : Nat} (from_ : attempt ≤ pause) (until_ : pause ≤ attempt + left)
    (awake : sleep (2 ^ pause / 2) = false) (lastError : Option SdkError) :
    ∃ escape, (attempts sleep true (fun _ => exchange) (left + 2) attempt (2 ^ attempt / 2)
      lastError).ending = .escaped escape := by
  induction left generalizing attempt lastError with
  | zero =>
      obtain rfl : pause = attempt := by omega
      obtain ⟨error, step⟩ := attempts_repeated sleep repeats 0 pause (2 ^ pause / 2) lastError
      rw [step, if_neg (by simp [awake])]
      exact ⟨_, rfl⟩
  | succ left ih =>
      obtain ⟨error, step⟩ :=
        attempts_repeated sleep repeats (left + 1) attempt (2 ^ attempt / 2) lastError
      rw [step]
      split_ifs with slept
      · have later : attempt + 1 ≤ pause := by
          refine Nat.lt_of_le_of_ne from_ ?_
          rintro rfl
          rw [awake] at slept
          cases slept
        have doubled : 2 * (2 ^ attempt / 2 : ℚ) = 2 ^ (attempt + 1) / 2 := by
          rw [pow_succ]
          ring
        rw [doubled]
        exact ih (attempt + 1) later (by omega) _
      · exact ⟨_, rfl⟩

/-- A run in which the same happens at every attempt. -/
abbrev SafeAlways (sleep : ℚ → Bool) (maxRetries : Nat) (call : Call)
    (exchange : Exchange Response) : Prop :=
  SafeRun Response.status Returns call maxRetries (fun _ => exchange)
    (request sleep maxRetries call fun _ => exchange)

theorem encodable_of_safe {exchange : Exchange Response}
    (safe : SafeAlways sleep maxRetries call exchange) : Encodable call := by
  by_contra unencodable
  have sent := safe.sent
  rw [request, if_neg unencodable] at sent
  exact absurd sent (by decide)

theorem request_of_retries (encodable : Encodable call) (retries : Retries maxRetries call) :
    request sleep maxRetries call exchanges =
      attempts sleep true exchanges (maxRetries - 1 + 2) 0 (1 / 2) none := by
  obtain ⟨retryable, some_⟩ := retries
  rw [request, if_pos encodable, retryable, if_pos rfl,
    show maxRetries + 1 = maxRetries - 1 + 2 by omega]

/-- A call that is repeated over and over has a key and can sleep. -/
theorem keyed_patient_of_safe {exchange : Exchange Response} (repeats : Repeats exchange)
    (retries : Retries maxRetries call) (safe : SafeAlways sleep maxRetries call exchange) :
    call.Keyed ∧ Patient sleep maxRetries := by
  have encodable := encodable_of_safe safe
  have failed : ¬ exchange.Succeeds Response.status := by
    cases exchange with
    | failed reason => exact id
    | thrown reason => exact id
    | answered response => exact fun range => absurd range.2 (by have := repeats.1; omega)
  have patient : Patient sleep maxRetries := by
    intro pause before
    by_contra awake
    have positive := retries.2
    obtain ⟨escape, escaped⟩ := attempts_escapes repeats (maxRetries - 1) 0 (Nat.zero_le pause)
      (by omega) (by simpa using awake) none
    obtain ⟨error, raised⟩ := safe.fails failed
    rw [request_of_retries encodable retries] at raised
    rw [pow_zero, raised] at escaped
    cases escaped
  refine ⟨safe.keyed ?_, patient⟩
  rw [request_of_retries encodable retries]
  obtain ⟨error, step⟩ := attempts_repeated sleep repeats (maxRetries - 1) 0 (1 / 2) none
  have slept : sleep (1 / 2) = true := by simpa using patient 0 retries.2
  rw [step, if_pos slept]
  have sends := le_sends sleep (fun _ => exchange) true (maxRetries - 1 + 1) (0 + 1)
    (2 * (1 / 2)) (some error)
  omega

/-- A call that is limited over and over has a key, and can wait as it is asked to. -/
theorem keyed_of_limited {response : Response} (made : ∃ error, errorOf response = .ok error)
    (safe : SafeAlways sleep maxRetries call (.answered response))
    (limited : response.status = 429) (retries : Retries maxRetries call) :
    call.Keyed ∧ sleep (pauseSeconds response.retryAfter) = true := by
  obtain ⟨error, made⟩ := made
  obtain ⟨isLimit, seconds⟩ := errorOf_facts made
  have step : request sleep maxRetries call (fun _ => .answered response) =
      if sleep (pauseSeconds response.retryAfter) then
        attempts sleep true (fun _ => .answered response) (maxRetries - 1 + 1) (0 + 1) (1 / 2) none
      else ⟨0 + 1, .escaped .overflowError⟩ := by
    rw [request_of_retries (encodable_of_safe safe) retries, attempts]
    simp only
    rw [if_neg (by omega), made]
    simp only [isLimit.mpr limited, seconds, Nat.add_eq_zero_iff, one_ne_zero, and_false, or_false,
      Bool.true_eq_false, if_false, if_true]
  have slept : sleep (pauseSeconds response.retryAfter) = true := by
    by_contra awake
    obtain ⟨error, raised⟩ := safe.fails fun range => absurd range.2 (by omega)
    rw [step, if_neg awake] at raised
    cases raised
  refine ⟨safe.keyed ?_, slept⟩
  rw [step, if_pos slept]
  have sends := le_sends sleep (fun _ => .answered response) true (maxRetries - 1 + 1) (0 + 1)
    (1 / 2) none
  omega

/-- There is a first attempt. -/
theorem request_first (encodable : Encodable call) :
    ∃ left, request sleep maxRetries call exchanges =
      attempts sleep call.retryable exchanges (left + 1) 0 (1 / 2) none := by
  rw [request, if_pos encodable]
  split_ifs
  · exact ⟨maxRetries, rfl⟩
  · exact ⟨0, rfl⟩

theorem handled_of_safe {exchange : Exchange Response}
    (safe : SafeAlways sleep maxRetries call exchange) :
    Handled sleep maxRetries call exchange := by
  cases exchange with
  | failed reason =>
      exact fun retries =>
        keyed_patient_of_safe (show Repeats (.failed reason) from trivial) retries safe
  | thrown reason =>
      obtain ⟨error, raised⟩ := safe.fails id
      obtain ⟨left, first⟩ := request_first (encodable_of_safe safe)
      rw [first, attempts] at raised
      cases raised
  | answered response =>
      refine or_iff_not_imp_left.mpr fun outside => ?_
      obtain ⟨error, raised⟩ := safe.fails outside
      obtain ⟨left, first⟩ := request_first (encodable_of_safe safe)
      rw [first, attempts] at raised
      simp only at raised
      have high : 400 ≤ response.status := by
        by_contra low
        rw [if_pos (by omega)] at raised
        cases raised
      rw [if_neg (by omega)] at raised
      have made : ∃ error, errorOf response = .ok error := by
        cases made : errorOf response with
        | error escape =>
            rw [made] at raised
            cases raised
        | ok error => exact ⟨error, rfl⟩
      obtain ⟨body, text, header⟩ := errorOf_ok_iff.mpr made
      refine ⟨high, body, text, header, keyed_of_limited made safe, fun server retries => ?_⟩
      exact keyed_patient_of_safe (show Repeats (.answered response) from ⟨server, made⟩) retries
        safe

end Converse

/-- The Python client retries safely exactly if the key can be sent and every answer is
handled. -/
theorem safe_iff (sleep : ℚ → Bool) (maxRetries : Nat) (call : Call)
    (possible : Set (Exchange Response)) :
    (∀ exchanges : Nat → Exchange Response, (∀ attempt, exchanges attempt ∈ possible) →
        SafeRun Response.status Returns call maxRetries exchanges
          (request sleep maxRetries call exchanges)) ↔
      ∀ exchange ∈ possible, Encodable call ∧ Handled sleep maxRetries call exchange := by
  constructor
  · intro safe exchange member
    have always := safe (fun _ => exchange) fun _ => member
    exact ⟨encodable_of_safe always, handled_of_safe always⟩
  · intro handled exchanges drawn
    have each := fun attempt => (handled _ (drawn attempt)).2
    have settles := request_settles (handled _ (drawn 0)).1 each
    exact .of_settles settles (keyed_of_settles each settles)

end Proof

/-- `time.sleep`: the seconds have to fit a signed 64-bit count of nanoseconds. -/
def timeSleep (seconds : ℚ) : Bool := seconds * 10 ^ 9 < 2 ^ 63

end Python

/-! ## The TypeScript client -/

namespace TypeScript

open JavaScript

/-- An answer; `document` is what `JSON.parse` makes of the text, or `none` where it
throws. -/
structure Answer where
  status : Nat
  retryAfter : Option String
  requestId : Option String
  text : String
  document : Option Value

/-- `SyntaxError` of `JSON.parse`. -/
inductive Escape where
  | syntaxError

structure ApiError where
  kind : ErrorClass
  status : Nat
  code : String
  message : String
  details : List (String × Value)
  requestId : Option String
  retryAfter : Number

inductive SdkError where
  | api (error : ApiError)
  | transport (message : String)

/-- The members of the envelope, none unless it is an object. -/
def envelope : Option Value → List (String × Value)
  | some (.obj fields) =>
      match member? "error" fields with
      | some (.obj body) => body
      | _ => []
  | _ => []

/-- `slice(0, count)`, without half of a surrogate pair at its end. -/
def slice : (count : Nat) → List Char → List Char
  | _, [] => []
  | count, character :: rest =>
      let units := (codeUnits character).length
      if units ≤ count then character :: slice (count - units) rest else []

/-- `/^\d+$/`. -/
def isDigits (text : String) : Bool := isDigit text

/-- `errorOf`. -/
def errorOf (answer : Answer) : ApiError :=
  let body := envelope answer.document
  let code := match member? "code" body with
    | some (.str code) => code
    | _ => "http_error"
  let message := match member? "message" body with
    | some (.str message) => message
    | _ => String.ofList (slice 200 answer.text.toList)
  { kind := errorClass answer.status (.str code)
    status := answer.status
    code := code
    message := message
    details := match member? "details" body with
      | some (.obj details) => details
      | _ => []
    requestId := answer.requestId
    retryAfter := match answer.retryAfter with
      | some text =>
          if isDigits text then ofInt (Nat.ofDigitChars 10 text.toList 0) else .finite 1
      | none => .finite 1 }

/-- How an answer of success ends the call. -/
def parseBody (answer : Answer) : Ending (Option Value) SdkError Escape :=
  if answer.text = "" then .returned none
  else
    match answer.document with
    | some value => .returned (some value)
    | none => .escaped .syntaxError

/-- `retryAfter * 1000`. -/
def milliseconds : Number → Number
  | .finite seconds => ofRat (seconds * 1000)
  | other => other

section Loop

variable (maxRetryDelayMs : Number) (exchanges : Nat → Exchange Answer)

/-- The loop of `#request`, with `left` attempts to go. -/
def attempts : (left attempt : Nat) → (lastError : Option SdkError) →
    Run (Option Value) SdkError Escape
  | 0, attempt, lastError =>
      ⟨attempt, .raised (lastError.getD (.transport "request failed"))⟩
  | left + 1, attempt, lastError =>
      match exchanges attempt with
      | .failed reason | .thrown reason =>
          attempts left (attempt + 1) (some (.transport reason))
      | .answered answer =>
          if 200 ≤ answer.status ∧ answer.status < 300 then ⟨attempt + 1, parseBody answer⟩
          else
            let error := errorOf answer
            if left = 0 then ⟨attempt + 1, .raised (.api error)⟩
            else if error.kind = .rateLimited then
              if (milliseconds error.retryAfter).exceeds maxRetryDelayMs then
                ⟨attempt + 1, .raised (.api error)⟩
              else attempts left (attempt + 1) lastError
            else if answer.status < 500 then ⟨attempt + 1, .raised (.api error)⟩
            else attempts left (attempt + 1) (some (.api error))

end Loop

/-- `#request`. -/
def request (maxRetryDelayMs : Number) (maxRetries : Nat) (call : Call)
    (exchanges : Nat → Exchange Answer) : Run (Option Value) SdkError Escape :=
  attempts maxRetryDelayMs exchanges (if call.retryable then maxRetries + 1 else 1) 0 none

/-- The call of `createDomain`. -/
def createDomain (idempotencyKey : Option String) : Call where
  method := .post
  endpoint := .domains
  idempotencyKey := idempotencyKey.filter (· ≠ "")
  retryable := idempotencyKey.any (· ≠ "")

def call (operation : Operation) : Call := operation.callWith createDomain

/-- The body of an answer: nothing, or the value of its text. -/
def Returns (answer : Answer) (body : Option Value) : Prop :=
  (answer.text = "" ∧ body = none) ∨
    (answer.text ≠ "" ∧ ∃ value, answer.document = some value ∧ body = some value)

/-- A success without a text, or with one that is JSON. -/
def Handled : Exchange Answer → Prop
  | .failed _ | .thrown _ => True
  | .answered answer => 200 ≤ answer.status → answer.status ≤ 299 →
      answer.text = "" ∨ answer.document.isSome = true

section Proof

variable {maxRetryDelayMs : Number} {exchanges : Nat → Exchange Answer}

theorem errorOf_rateLimited {answer : Answer} :
    (errorOf answer).kind = .rateLimited ↔ answer.status = 429 := by
  simp only [errorOf, errorClass_rateLimited]

/-- A success is returned. -/
theorem settles_success {attempt left : Nat} {answer : Answer}
    (here : exchanges attempt = .answered answer) (handled : Handled (exchanges attempt))
    (success : 200 ≤ answer.status ∧ answer.status < 300) :
    Settles Answer.status Returns exchanges attempt (left + 1) ⟨attempt + 1, parseBody answer⟩ := by
  have range : 200 ≤ answer.status ∧ answer.status ≤ 299 := ⟨success.1, by omega⟩
  unfold parseBody
  split_ifs with empty
  · exact .returned here range (.inl ⟨empty, rfl⟩)
  · rw [here] at handled
    obtain ⟨value, read⟩ := Option.isSome_iff_exists.mp
      ((handled range.1 range.2).resolve_left empty)
    rw [read]
    exact .returned here range (.inr ⟨empty, value, read, rfl⟩)

theorem attempts_settles (handled : ∀ attempt, Handled (exchanges attempt))
    (left attempt : Nat) (lastError : Option SdkError) :
    Settles Answer.status Returns exchanges attempt (left + 1)
      (attempts maxRetryDelayMs exchanges (left + 1) attempt lastError) := by
  induction left generalizing attempt lastError with
  | zero =>
      rw [attempts]
      cases here : exchanges attempt with
      | failed reason | thrown reason =>
          simp only [attempts]
          exact .raised (by rw [here]; exact id)
      | answered answer =>
          simp only [if_true]
          split_ifs with success
          · exact settles_success here (handled attempt) success
          · refine .raised ?_
            rw [here]
            exact fun range => success ⟨range.1, Nat.lt_succ_of_le range.2⟩
  | succ left ih =>
      rw [attempts]
      cases here : exchanges attempt with
      | failed reason | thrown reason =>
          exact .next (by rw [here]; exact ⟨id, fun refuses => refuses.1⟩) (ih _ _)
      | answered answer =>
          simp only [Nat.add_eq_zero_iff, one_ne_zero, and_false, if_false]
          have failed (outside : ¬ (200 ≤ answer.status ∧ answer.status < 300)) :
              ¬ (exchanges attempt).Succeeds Answer.status := by
            rw [here]
            exact fun range => outside ⟨range.1, Nat.lt_succ_of_le range.2⟩
          split_ifs with success limited long refused
          · exact settles_success here (handled attempt) success
          · exact .raised (failed success)
          · rw [errorOf_rateLimited] at limited
            refine .next ⟨failed success, ?_⟩ (ih _ _)
            rw [here]
            exact fun refuses => refuses.2 ⟨limited.ge, limited.le⟩
          · exact .raised (failed success)
          · refine .next ⟨failed success, ?_⟩ (ih _ _)
            rw [here]
            exact fun refuses => refused (Nat.lt_succ_of_le refuses.1.2)

variable (maxRetryDelayMs) in
theorem request_settles (handled : ∀ attempt, Handled (exchanges attempt)) (maxRetries : Nat)
    (call : Call) :
    Settles Answer.status Returns exchanges 0 (if call.retryable then maxRetries + 1 else 1)
      (request maxRetryDelayMs maxRetries call exchanges) := by
  rw [request]
  split_ifs
  · exact attempts_settles handled maxRetries 0 none
  · exact attempts_settles handled 0 0 none

/-- A create that is retried carries its key. -/
theorem call_keyed {operation : Operation} (retryable : (call operation).retryable = true) :
    (call operation).Keyed := by
  intro post domains
  cases operation with
  | createDomain idempotencyKey =>
      cases idempotencyKey with
      | none => cases retryable
      | some key =>
          have nonempty : key ≠ "" := by
            simpa [call, Operation.callWith, createDomain] using retryable
          simp [call, Operation.callWith, createDomain, Option.filter, nonempty]
  | _ => cases post <;> cases domains

/-- The TypeScript client retries safely exactly if every success is JSON or empty. -/
theorem safe_iff (maxRetryDelayMs : Number) (maxRetries : Nat) (operation : Operation)
    (possible : Set (Exchange Answer)) :
    (∀ exchanges : Nat → Exchange Answer, (∀ attempt, exchanges attempt ∈ possible) →
        SafeRun Answer.status Returns (call operation) maxRetries exchanges
          (request maxRetryDelayMs maxRetries (call operation) exchanges)) ↔
      ∀ exchange ∈ possible, Handled exchange := by
  constructor
  · intro safe exchange member
    cases exchange with
    | failed reason | thrown reason => trivial
    | answered answer =>
        intro above below
        by_contra unread
        rw [not_or, Option.not_isSome_iff_eq_none] at unread
        have escapes : request maxRetryDelayMs maxRetries (call operation)
            (fun _ => .answered answer) = ⟨1, .escaped .syntaxError⟩ := by
          rw [request]
          split_ifs <;> simp [attempts, parseBody, unread, above, Nat.lt_succ_of_le below]
        obtain ⟨body, returned, -⟩ :=
          (safe (fun _ => .answered answer) fun _ => member).succeeds answer rfl above below
        rw [escapes] at returned
        cases returned
  · intro handled exchanges drawn
    have settles := request_settles maxRetryDelayMs
      (fun attempt => handled _ (drawn attempt)) maxRetries (call operation)
    refine .of_settles settles fun twice => ?_
    by_cases retryable : (call operation).retryable = true
    · exact call_keyed retryable
    · have high := settles.high
      rw [if_neg retryable] at high
      omega

end Proof

end TypeScript

/-! ## Both clients -/

/-- Whatever failures and answers a client may meet, all its runs are safe exactly if it
handles each of them. -/
theorem sdk_retries_safe_iff (sleep : ℚ → Bool) (maxRetryDelayMs : JavaScript.Number)
    (maxRetries : Nat) (operation : Operation) (python : Set (Exchange Python.Response))
    (typeScript : Set (Exchange TypeScript.Answer)) :
    (∀ exchanges : Nat → Exchange Python.Response, (∀ attempt, exchanges attempt ∈ python) →
        SafeRun Python.Response.status Python.Returns (Python.call operation) maxRetries exchanges
          (Python.request sleep maxRetries (Python.call operation) exchanges)) ∧
      (∀ exchanges : Nat → Exchange TypeScript.Answer, (∀ attempt, exchanges attempt ∈ typeScript) →
        SafeRun TypeScript.Answer.status TypeScript.Returns (TypeScript.call operation) maxRetries
          exchanges
          (TypeScript.request maxRetryDelayMs maxRetries (TypeScript.call operation) exchanges)) ↔
    (∀ exchange ∈ python, Python.Encodable (Python.call operation) ∧
        Python.Handled sleep maxRetries (Python.call operation) exchange) ∧
      ∀ exchange ∈ typeScript, TypeScript.Handled exchange := by
  rw [Python.safe_iff, TypeScript.safe_iff]

/-- With an empty key the Python client sends a create three times, none of them with a
key. -/
theorem sdk_retries_unkeyed :
    ¬ SafeRun Python.Response.status Python.Returns (Python.call (.createDomain (some ""))) 2
      (fun _ => .failed "ConnectTimeout: timed out")
      (Python.request Python.timeSleep 2 (Python.call (.createDomain (some "")))
        fun _ => .failed "ConnectTimeout: timed out") := by
  intro safe
  have keyed := (Python.handled_of_safe safe ⟨rfl, by decide⟩).1
  exact keyed rfl rfl rfl

end CustomDomain.SdkClient
