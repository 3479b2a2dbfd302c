-- SUMMARY: Shared Auth: introspection of a user token, and the checks that turn its outcome into an identity.
import ApmeWebMash.Crates

/-! # Shared Auth

The module `auth`. The official client asks Shared Auth about a token. What it
returns becomes an identity only if every claim is as the service requires. -/

namespace Web

def casesReadScope : Str := "apme:cases:read"

/-- `ClientError`, as far as the service tells its cases apart. -/
inductive ClientError where
  | unauthorized
  | invalidInput (message : Str)
  | other
deriving DecidableEq

/-- `Introspection`, with the method `has_scope` as a field. -/
structure Introspection where
  active : Bool
  aud : Option Str
  iss : Option Str
  exp : Option Nat
  nbf : Option Nat
  sub : Option Str
  hasScope : Str → Bool
  rest : List (Str × Json)
  providerTenant : Option Str

structure VerifiedIdentity where
  subject : Uuid
  tenantId : Uuid
deriving DecidableEq

inductive AuthError where
  | unauthorized
  | unavailable
  | configuration
deriving DecidableEq

/-- The readings of `unix_timestamp` that `exp` and `nbf` are compared with. -/
structure Clock where
  atExpiry : Nat
  atNotBefore : Nat

/-- `SharedAuthVerifier`: the client, as the outcome of
    `introspect_with_requirements`, and the claims it insists on. -/
structure SharedAuthVerifier where
  introspect : Str → Str → List Str → Except ClientError Introspection
  audience : Str
  issuer : Str

/-! ## Claims -/

/-- `validate_claim`. -/
def validateClaim (value : Str) (maximum : Nat) : Option Str :=
  if value = [] || Str.len value > maximum || Str.trim value ≠ value || value.any Str.isControl
  then none
  else some value

section
variable (uuid : UuidCrate)

/-- `parse_uuid_claim`. -/
def parseUuidClaim (value : Option Str) : Option Uuid :=
  (value.bind fun value => validateClaim value 128).bind uuid.parse

/-- The tenant that an introspection names. -/
def tenantClaim (identity : Introspection) : Option Str :=
  ((Json.lookup "tenant_id" identity.rest).bind Json.asStr).or identity.providerTenant

/-- `validate_identity`. -/
def validateIdentity (clock : Clock) (identity : Introspection) (audience issuer : Str)
    (requiredScopes : List Str) : Except AuthError VerifiedIdentity :=
  if !identity.active || identity.aud ≠ some audience || identity.iss ≠ some issuer ||
      identity.exp.all (· ≤ clock.atExpiry) || identity.nbf.any (· > clock.atNotBefore) ||
      requiredScopes.any (fun required => !identity.hasScope required) then
    .error .unauthorized
  else
    match parseUuidClaim uuid identity.sub with
    | none => .error .unauthorized
    | some subject =>
      match parseUuidClaim uuid (tenantClaim identity) with
      | none => .error .unauthorized
      | some tenantId => .ok ⟨subject, tenantId⟩

/-- `map_client_error`. -/
def mapClientError : ClientError → AuthError
  | .unauthorized | .invalidInput _ => .unauthorized
  | .other => .unavailable

/-- `verify_user`. -/
def SharedAuthVerifier.verifyUser (verifier : SharedAuthVerifier) (clock : Clock) (token : Str)
    (requiredScopes : List Str) : Except AuthError VerifiedIdentity :=
  match verifier.introspect token verifier.audience requiredScopes with
  | .error error => .error (mapClientError error)
  | .ok identity =>
    validateIdentity uuid clock identity verifier.audience verifier.issuer requiredScopes

end

/-- An identity comes from an introspection that the checks accept. -/
theorem verifyUser_eq_ok {uuid : UuidCrate} {verifier : SharedAuthVerifier} {clock : Clock}
    {token : Str} {requiredScopes : List Str} {identity : VerifiedIdentity} :
    verifier.verifyUser uuid clock token requiredScopes = .ok identity ↔
      ∃ introspection,
        verifier.introspect token verifier.audience requiredScopes = .ok introspection ∧
        validateIdentity uuid clock introspection verifier.audience verifier.issuer
          requiredScopes = .ok identity := by
  rw [SharedAuthVerifier.verifyUser]
  cases verifier.introspect token verifier.audience requiredScopes with
  | error error => simp
  | ok introspection => simp

end Web
