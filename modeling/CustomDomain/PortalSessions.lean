import CustomDomain.Assertions

/-!
# Sessions of the portal

The signed cookie that `Sessions.issue` hands out and `Sessions.read` takes back.
HMAC-SHA256 is any function of the secret and the payload.
-/

namespace CustomDomain.PortalSession

open PythonText JsonText

/-- What `Sessions.read` lets escape; `invalidInt` stands for the exceptions of `int`. -/
inductive Raised where
  | unicodeEncodeError
  | typeError
  | invalidInt
  deriving DecidableEq

/-- The members of a session. -/
abbrev Session := List (String × Value)

/-- A call of `Sessions.issue`: its time and lifetime in seconds, and the token it drew.  Where the
expiry has too many digits, `json.dumps` raises and no session is issued. -/
structure Issue where
  now : ℚ
  ttl : Int
  csrf : String
  fits : (Scalar.integer (DoubleRounding.truncate now + ttl)).Fits

/-- The last second at which the session is good. -/
def Issue.expiry (issue : Issue) : Int := DoubleRounding.truncate issue.now + issue.ttl

def Issue.fields (issue : Issue) : List (String × Scalar) :=
  [("v", .integer 1), ("exp", .integer issue.expiry), ("csrf", .text issue.csrf)]

def Issue.payload (issue : Issue) : String := b64 (encodeUtf8 (dumpsInOrder issue.fields))

section Sessions

variable (hmac : List UInt8 → List UInt8 → List UInt8) (runtime : PythonRuntime)
variable (secret : List UInt8)

/-- The signature of an ASCII payload. -/
def signature (payload : String) : String := b64 (hmac secret (encodeUtf8 payload))

/-- `_sign`. -/
def sign (payload : String) : Except Raised String :=
  if isAscii payload then .ok (signature hmac secret payload) else .error .unicodeEncodeError

/-- `Sessions.issue`: the cookie and the CSRF token. -/
def Issue.run (issue : Issue) : Except Raised (String × String) := do
  let signature ← sign hmac secret issue.payload
  return (issue.payload ++ "." ++ signature, issue.csrf)

/-- The cookie of a session. -/
def Issue.cookie (issue : Issue) : String :=
  issue.payload ++ "." ++ signature hmac secret issue.payload

/-- `value == 1`. -/
def isOne : Value → Bool
  | .number true value => value = 1
  | .number false value => DoubleRounding.toDouble value = 1
  | .bool value => value
  | _ => false

/-- The checks of `Sessions.read` on a document that the secret signed. -/
def openSession (stamp : Int) : Option Value → Except Raised (Option Session)
  | some (.obj fields) =>
      if ((member? "v" fields).any isOne) = false then .ok none
      else
        match pythonInt runtime ((member? "exp" fields).getD (.number true 0)) with
        | none => .error .invalidInt
        | some expiry =>
            if expiry < stamp then .ok none
            else
              match member? "csrf" fields with
              | some (.str _) => .ok (some fields)
              | _ => .ok none
  | _ => .ok none

/-- `Sessions.read`. -/
def read (cookie : Option String) (now : ℚ) : Except Raised (Option Session) :=
  match cookie.bind (rpartition '.') with
  | none => .ok none
  | some (payload, given) =>
      match sign hmac secret payload with
      | .error raised => .error raised
      | .ok expected =>
          match compareDigest expected given with
          | none => .error .typeError
          | some false => .ok none
          | some true =>
              openSession runtime (DoubleRounding.truncate now)
                ((unb64 payload).bind (loads runtime))

end Sessions

section Reading

variable {hmac : List UInt8 → List UInt8 → List UInt8} {runtime : PythonRuntime}
variable {secret : List UInt8} {issued : Set Issue} {cookie : Option String} {now : ℚ}

theorem isAscii_b64 (data : List UInt8) : isAscii (b64 data) = true := by
  rw [isAscii, b64_eq, String.toList_ofList, List.all_eq_true]
  intro character member
  exact decide_eq_true (Base64.encode_facts _ member).1

theorem Issue.run_eq (issue : Issue) :
    issue.run hmac secret = .ok (issue.cookie hmac secret, issue.csrf) := by
  have ascii : isAscii issue.payload = true := isAscii_b64 _
  simp only [Issue.run, sign, ascii, if_true]
  rfl

theorem rpartition_cookie (payload : String) :
    rpartition '.' (payload ++ "." ++ signature hmac secret payload) =
      some (payload, signature hmac secret payload) :=
  rpartition_append (dot_not_mem_b64 _)

/-- A cookie that verifies was issued: nobody else has the secret. -/
def Unforged (hmac : List UInt8 → List UInt8 → List UInt8) (secret : List UInt8)
    (issued : Set Issue) (cookie : Option String) : Prop :=
  ∀ payload, isAscii payload = true →
    cookie = some (payload ++ "." ++ signature hmac secret payload) →
    ∃ issue ∈ issued, payload = issue.payload

/-- A cookie with a dot is ASCII. -/
def Readable (cookie : Option String) : Prop :=
  ∀ text, cookie = some text → '.' ∈ text.toList → isAscii text = true

/-- A session is returned exactly for an issued cookie that has not expired, with the
token that was issued with it, and nothing is raised. -/
def ReadsIssued (hmac : List UInt8 → List UInt8 → List UInt8) (secret : List UInt8)
    (issued : Set Issue) (cookie : Option String) (now : ℚ)
    (outcome : Except Raised (Option Session)) : Prop :=
  ∃ found, outcome = .ok found ∧
    (found.isSome = true ↔ ∃ issue ∈ issued, cookie = some (issue.cookie hmac secret) ∧
      DoubleRounding.truncate now ≤ issue.expiry) ∧
    ∀ session, found = some session → ∀ issue ∈ issued,
      cookie = some (issue.cookie hmac secret) → member? "csrf" session = some (.str issue.csrf)

/-- The members that reading the payload of an issue gives. -/
def Issue.session (issue : Issue) : Session :=
  [("v", .number true 1), ("exp", .number true issue.expiry), ("csrf", .str issue.csrf)]

variable (runtime) in
theorem loads_payload (issue : Issue) :
    (unb64 issue.payload).bind (loads runtime) = some (.obj issue.session) := by
  have some_ : issue.fields ≠ [] := by simp [Issue.fields]
  have fit : ∀ field ∈ issue.fields, field.2.Fits := by
    simp only [Issue.fields, List.mem_cons, List.not_mem_nil, or_false, forall_eq_or_imp, forall_eq]
    exact ⟨by decide, issue.fits, trivial⟩
  rw [Issue.payload, unb64_b64, Option.bind_some, loads_dumpsInOrder runtime some_ fit,
    read_dumpsInOrder some_]
  simp [Issue.fields, Issue.session, Scalar.read]

/-- The payload tells the expiry and the token. -/
theorem Issue.payload_inj {first second : Issue} (same : first.payload = second.payload) :
    first.expiry = second.expiry ∧ first.csrf = second.csrf := by
  have decoded := loads_payload sampleRuntime first
  rw [same, loads_payload] at decoded
  simp only [Issue.session, Option.some.injEq, Value.obj.injEq, List.cons.injEq, Prod.mk.injEq,
    Value.number.injEq, Value.str.injEq, Rat.intCast_inj, true_and, and_true] at decoded
  exact ⟨decoded.1.symm, decoded.2.symm⟩

theorem openSession_issued (stamp : Int) (issue : Issue) :
    openSession runtime stamp (some (.obj issue.session)) =
      .ok (if issue.expiry < stamp then none else some issue.session) := by
  have version : member? "v" issue.session = some (.number true 1) := rfl
  have expiry : member? "exp" issue.session = some (.number true issue.expiry) := rfl
  have csrf : member? "csrf" issue.session = some (.str issue.csrf) := rfl
  simp only [openSession, version, expiry, csrf, Option.any_some, isOne, decide_true,
    Bool.true_eq_false, if_false, Option.getD_some, pythonInt, DoubleRounding.truncate_int]
  split_ifs <;> rfl

theorem dot_mem_cookie (issue : Issue) : '.' ∈ (issue.cookie hmac secret).toList := by
  simp [Issue.cookie]

/-- An issued cookie is read as long as it has not expired. -/
theorem read_cookie (issue : Issue) (now : ℚ) :
    read hmac runtime secret (some (issue.cookie hmac secret)) now =
      .ok (if issue.expiry < DoubleRounding.truncate now then none else some issue.session) := by
  have ascii : isAscii issue.payload = true := isAscii_b64 _
  have compared : compareDigest (signature hmac secret issue.payload)
      (signature hmac secret issue.payload) = some true := by
    simp [compareDigest, signature, isAscii_b64]
  rw [read, Issue.cookie, Option.bind_some, rpartition_cookie]
  simp only [sign, ascii, if_true, compared, loads_payload, openSession_issued]

/-- The cookie tells the expiry and the token. -/
theorem Issue.cookie_inj {first second : Issue}
    (same : first.cookie hmac secret = second.cookie hmac secret) :
    first.expiry = second.expiry ∧ first.csrf = second.csrf := by
  have parts := congrArg (rpartition '.') same
  rw [Issue.cookie, Issue.cookie, rpartition_cookie, rpartition_cookie, Option.some.injEq,
    Prod.mk.injEq] at parts
  exact Issue.payload_inj parts.1

theorem readsIssued_cookie {issue : Issue} (member : issue ∈ issued) :
    ReadsIssued hmac secret issued (some (issue.cookie hmac secret)) now
      (read hmac runtime secret (some (issue.cookie hmac secret)) now) := by
  refine ⟨_, read_cookie issue now, ?_, ?_⟩
  · constructor
    · intro found
      refine ⟨issue, member, rfl, ?_⟩
      by_contra late
      rw [if_pos (not_le.mp late)] at found
      cases found
    · rintro ⟨other, -, same, inTime⟩
      rw [(Issue.cookie_inj (Option.some.inj same)).1, if_neg (not_lt.mpr inTime)]
      rfl
  · intro session found other _ same
    have csrf := (Issue.cookie_inj (Option.some.inj same)).2
    split_ifs at found
    cases found
    rw [← csrf]
    rfl

/-- Whatever does not verify is no session, and was not issued. -/
theorem readsIssued_none (unissued : ∀ issue ∈ issued, cookie ≠ some (issue.cookie hmac secret)) :
    ReadsIssued hmac secret issued cookie now (.ok none) := by
  refine ⟨none, rfl, ⟨nofun, ?_⟩, nofun⟩
  rintro ⟨issue, member, same, -⟩
  exact absurd same (unissued issue member)

theorem readable_iff {payload given : String} :
    Readable (some (payload ++ "." ++ given)) ↔
      isAscii payload = true ∧ isAscii given = true := by
  have whole : isAscii (payload ++ "." ++ given) = (isAscii payload && isAscii given) := by
    simp [isAscii]
  constructor
  · intro readable
    have ascii := readable _ rfl (by simp)
    rwa [whole, Bool.and_eq_true] at ascii
  · rintro ascii text same -
    rw [← Option.some.inj same, whole, Bool.and_eq_true]
    exact ascii

section Dotted

variable {payload given : String}
  (parts : rpartition '.' (payload ++ "." ++ given) = some (payload, given))

include parts

theorem unissued_of_differ (differ : given ≠ signature hmac secret payload) (issue : Issue) :
    some (payload ++ "." ++ given) ≠ some (issue.cookie hmac secret) := by
  intro same
  rw [Option.some.inj same, Issue.cookie, rpartition_cookie, Option.some.injEq,
    Prod.mk.injEq] at parts
  exact differ (by rw [← parts.1, parts.2])

/-- A cookie with a signature of the wrong text is no session. -/
theorem read_of_differ (ascii : isAscii payload = true) (ascii' : isAscii given = true)
    (differ : given ≠ signature hmac secret payload) :
    read hmac runtime secret (some (payload ++ "." ++ given)) now = .ok none := by
  have compared : compareDigest (signature hmac secret payload) given = some false := by
    simpa [compareDigest, ascii', signature, isAscii_b64] using differ.symm
  simp only [read, Option.bind_some, parts, sign, ascii, if_true, compared]

/-- A payload or a signature that is not ASCII raises. -/
theorem read_raises (foreign : ¬ (isAscii payload = true ∧ isAscii given = true)) :
    ∃ raised, read hmac runtime secret (some (payload ++ "." ++ given)) now = .error raised := by
  by_cases ascii : isAscii payload = true
  · have ascii' : isAscii given = false := by simpa [ascii] using foreign
    have raises : compareDigest (signature hmac secret payload) given = none := by
      simp [compareDigest, ascii']
    exact ⟨.typeError, by simp only [read, Option.bind_some, parts, sign, ascii, if_true, raises]⟩
  · exact ⟨.unicodeEncodeError, by simp [read, parts, sign, ascii]⟩

theorem readsIssued_dotted (unforged : Unforged hmac secret issued (some (payload ++ "." ++ given))) :
    ReadsIssued hmac secret issued (some (payload ++ "." ++ given)) now
        (read hmac runtime secret (some (payload ++ "." ++ given)) now) ↔
      isAscii payload = true ∧ isAscii given = true := by
  by_cases ascii : isAscii payload = true ∧ isAscii given = true
  · refine iff_of_true ?_ ascii
    by_cases verifies : given = signature hmac secret payload
    · -- Only an issue can have made this cookie.
      obtain ⟨issue, member, rfl⟩ := unforged payload ascii.1 (by rw [verifies])
      rw [verifies]
      exact readsIssued_cookie member
    · rw [read_of_differ parts ascii.1 ascii.2 verifies]
      exact readsIssued_none fun issue _ => unissued_of_differ parts verifies issue
  · refine iff_of_false ?_ ascii
    rintro ⟨found, outcome, -⟩
    obtain ⟨raised, stopped⟩ := read_raises parts ascii
    rw [stopped] at outcome
    cases outcome

end Dotted

/-- A cookie is read as it should be exactly if it is readable. -/
theorem session_read_iff (runtime : PythonRuntime) (now : ℚ)
    (unforged : Unforged hmac secret issued cookie) :
    ReadsIssued hmac secret issued cookie now (read hmac runtime secret cookie now) ↔
      Readable cookie := by
  cases parts : cookie.bind (rpartition '.') with
  | none =>
      have noDot : ∀ text, cookie = some text → '.' ∉ text.toList := by
        intro text given
        rw [given, Option.bind_some] at parts
        exact rpartition_eq_none.mp parts
      have outcome : read hmac runtime secret cookie now = .ok none := by
        rw [read, parts]
      have unissued : ∀ issue ∈ issued, cookie ≠ some (issue.cookie hmac secret) :=
        fun issue _ same => noDot _ same (dot_mem_cookie issue)
      rw [outcome]
      exact iff_of_true (readsIssued_none unissued) fun text given dot =>
        absurd dot (noDot text given)
  | some pair =>
      obtain ⟨payload, given⟩ := pair
      obtain ⟨text, rfl, parts⟩ := Option.bind_eq_some_iff.mp parts
      obtain rfl : text = payload ++ "." ++ given := of_rpartition parts
      rw [readable_iff, readsIssued_dotted parts unforged]

end Reading

/-! ## One session -/

section Sample

def sampleIssue : Issue where
  now := 1000
  ttl := 43200
  csrf := "c5rF"
  fits := by decide +kernel

/-- HMAC-SHA256 under the sample secret, for the payload of the sample session. -/
def sessionHmac (key data : List UInt8) : List UInt8 :=
  if key = encodeUtf8 sampleSecret ∧
      data = encodeUtf8 "eyJ2IjoxLCJleHAiOjQ0MjAwLCJjc3JmIjoiYzVyRiJ9" then
    [57, 219, 2, 20, 229, 108, 110, 12, 179, 187, 236, 199, 74, 149, 186, 108, 208, 58, 47,
      187, 117, 242, 129, 108, 147, 139, 194, 43, 170, 177, 97, 23]
  else []

/-- The cookie of a session is read as long as the session is good. -/
theorem session_read_sample :
    ReadsIssued sessionHmac (encodeUtf8 sampleSecret) {sampleIssue}
      (some (sampleIssue.cookie sessionHmac (encodeUtf8 sampleSecret))) 44200
      (read sessionHmac sampleRuntime (encodeUtf8 sampleSecret)
        (some (sampleIssue.cookie sessionHmac (encodeUtf8 sampleSecret))) 44200) := by
  refine (session_read_iff sampleRuntime 44200 ?_).mpr ?_
  · intro payload _ same
    refine ⟨sampleIssue, rfl, ?_⟩
    have parts := congrArg (rpartition '.') (Option.some.inj same)
    rw [Issue.cookie, rpartition_cookie, rpartition_cookie, Option.some.injEq,
      Prod.mk.injEq] at parts
    exact parts.1.symm
  · exact readable_iff.mpr ⟨isAscii_b64 _, isAscii_b64 _⟩

/-- A cookie with a letter outside ASCII is answered by an exception. -/
theorem session_read_raises :
    Unforged sessionHmac (encodeUtf8 sampleSecret) {sampleIssue} (some "é.x") ∧
      ¬ ReadsIssued sessionHmac (encodeUtf8 sampleSecret) {sampleIssue} (some "é.x") 44200
        (read sessionHmac sampleRuntime (encodeUtf8 sampleSecret) (some "é.x") 44200) := by
  have parts : rpartition '.' ("é" ++ "." ++ "x") = some ("é", "x") := rfl
  constructor
  · intro payload ascii same
    have parts' := congrArg (rpartition '.') (Option.some.inj same)
    rw [rpartition_cookie] at parts'
    rw [← (Prod.mk.inj (Option.some.inj (parts.symm.trans parts'))).1] at ascii
    cases ascii
  · rintro ⟨found, outcome, -⟩
    obtain ⟨raised, stopped⟩ : ∃ raised, read sessionHmac sampleRuntime (encodeUtf8 sampleSecret)
        (some "é.x") 44200 = .error raised := read_raises parts (by decide)
    rw [stopped] at outcome
    cases outcome

end Sample

end CustomDomain.PortalSession
