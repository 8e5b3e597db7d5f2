import CustomDomain.PythonIpAddress
import Mathlib.Data.Rat.Defs
import Mathlib.Algebra.Order.Ring.Rat

/-!
# Edge settings

The settings of the edge as the environment gives them, what `validate` demands
of them, and the keys that sign assertions.
-/

namespace CustomDomain

open PythonText PythonIp

/-! ## Networks -/

/-- A netmask or host mask in dotted form, as the length of its prefix. -/
def maskPrefix (text : String) : Option Nat := do
  let mask ← parseIpv4 text
  (List.range 33).find? (fun length => mask = 2 ^ 32 - 2 ^ (32 - length)) <|>
    (List.range 33).find? fun length => mask = 2 ^ (32 - length) - 1

/-- The length after the slash, in decimal. -/
def prefixLength (width : Nat) (text : String) : Option Nat :=
  let length := digitsValue 10 decimalDigit text.toList
  if isDigit text ∧ length ≤ width then some length else none

/-- `ipaddress.ip_network(text, strict=False)`: the width of its addresses and
the length of its prefix. -/
def ipNetwork (text : String) : Option (Nat × Nat) :=
  match split '/' text with
  | [address] =>
      (parseIpv4 address).map (fun _ => (32, 32)) <|>
        (parseIpv6 address).map fun _ => (128, 128)
  | [address, mask] =>
      (parseIpv4 address >>= fun _ =>
          (prefixLength 32 mask <|> maskPrefix mask).map fun length => (32, length)) <|>
        parseIpv6 address >>= fun _ => (prefixLength 128 mask).map fun length => (128, length)
  | _ => none

/-! ## Keys -/

/-- What `parse_keys` raises. -/
def keysMessage : String :=
  "EDGE_ASSERTION_KEYS entries must be <key id>:<secret of at least 32 characters>"

/-- One entry of the list of keys. -/
def parseKey (keys : List (String × List UInt8)) (item : String) :
    Except String (List (String × List UInt8)) :=
  let item := strip item
  if item = "" then .ok keys
  else
    match partition ':' item with
    | none => .error keysMessage
    | some (keyId, secret) =>
        if strip keyId = "" ∨ secret.length < 32 then .error keysMessage
        else .ok (assign (strip keyId) (encodeUtf8 secret) keys)

/-- `parse_keys`: the first key is the active one. -/
def parseKeys (spec : String) : Except String (List (String × List UInt8)) :=
  (split ',' spec).foldlM parseKey []

/-- `_key_pairs`. -/
def keyPairs (spec : String) : Except String (List (String × String)) := do
  let keys ← parseKeys spec
  keys.mapM fun (keyId, secret) =>
    match decodeUtf8 secret with
    | some text => .ok (keyId, text)
    | none => .error "secret is not UTF-8"

/-! ## Settings -/

inductive StorageKind where
  | file
  | redis
  deriving DecidableEq

def redisEncryptionKeyLength : Nat := 32

/-- `EdgeSettings`, the fields that `validate` reads. -/
structure EdgeSettings where
  httpsPort : Int := 443
  httpPort : Int := 80
  tlsIssuer : String := "acme"
  storage : StorageKind := .file
  redisAddress : List String := []
  redisEncryptionKey : Option String := none
  reconcileEnabled : Bool := false
  reconcileInterval : Rat := 30
  legacyApiEnabled : Bool := true
  probeAddress : Option String := none
  probeTimeout : Rat := 15
  assertionKeys : List (String × String) := []
  assertionTtl : Int := 60
  portalAllowedIps : List String := []
  operatorAllowedIps : List String := []

namespace EdgeSettings

/-- One entry of an allowlist. -/
def validateEntry (name entry : String) : Except String Unit :=
  match ipNetwork entry with
  | none => .error (name ++ " entry '" ++ entry ++ "' is not an address or CIDR network")
  | some (_, 0) => .error (name ++ " must not contain the whole address space")
  | some _ => .ok ()

def validateRedis (settings : EdgeSettings) : Except String Unit :=
  if settings.storage = .redis then
    if settings.redisAddress = [] then
      .error "CADDY_STORAGE=redis requires CADDY_REDIS_ADDRESS"
    else if settings.redisEncryptionKey.any (·.length < redisEncryptionKeyLength) then
      .error "CADDY_REDIS_ENCRYPTION_KEY must be at least 32 characters"
    else .ok ()
  else .ok ()

/-- A demand on the settings, with what is raised where it is not met. -/
def demand (met : Bool) (message : String) : Except String Unit :=
  if met then .ok () else .error message

/-- `EdgeSettings.validate`. -/
def validate (settings : EdgeSettings) : Except String Unit := do
  demand (!(settings.reconcileEnabled && settings.legacyApiEnabled))
    ("EDGE_RECONCILE_ENABLED and ENABLE_LEGACY_API cannot both be true: the legacy " ++
      "/domains API and the reconciler would overwrite each other's Caddy config. " ++
      "Set ENABLE_LEGACY_API=false once the legacy hostnames are imported.")
  settings.validateRedis
  demand (1 ≤ settings.reconcileInterval) "EDGE_RECONCILE_INTERVAL must be at least 1 second"
  demand (0 < settings.httpsPort ∧ settings.httpsPort < 65536)
    "EDGE_HTTPS_PORT must be between 1 and 65535"
  demand (0 < settings.httpPort ∧ settings.httpPort < 65536 ∧
      settings.httpPort ≠ settings.httpsPort)
    "EDGE_HTTP_PORT must be a valid port different from HTTPS"
  demand (settings.tlsIssuer = "acme" ∨ settings.tlsIssuer = "internal")
    "EDGE_TLS_ISSUER must be 'acme' or 'internal'"
  demand (1 ≤ settings.probeTimeout) "EDGE_PROBE_TIMEOUT must be at least 1 second"
  demand (settings.probeAddress.all fun address => address = "" ∨ ':' ∈ address.toList)
    "EDGE_PROBE_ADDRESS must be host:port"
  demand (!(settings.reconcileEnabled && settings.assertionKeys.isEmpty))
    ("EDGE_ASSERTION_KEYS is required when the edge is enabled: routing signs every " ++
      "proxied request (docs/edge-routing.md)")
  demand (settings.assertionKeys.all fun key => !startsWith "app_" key.1)
    "EDGE_ASSERTION_KEYS key ids must not start with app_"
  demand (5 ≤ settings.assertionTtl ∧ settings.assertionTtl ≤ 600)
    "EDGE_ASSERTION_TTL must be between 5 and 600 seconds"
  settings.portalAllowedIps.forM (validateEntry "PORTAL_ALLOWED_IPS")
  settings.operatorAllowedIps.forM (validateEntry "OPERATOR_ALLOWED_IPS")

/-- `signing_keys`. -/
def signingKeys (settings : EdgeSettings) : List (String × List UInt8) :=
  settings.assertionKeys.map fun key => (key.1, encodeUtf8 key.2)

/-- `active_key`. -/
def activeKey (settings : EdgeSettings) : Option (String × List UInt8) :=
  settings.signingKeys.head?

end EdgeSettings

end CustomDomain
