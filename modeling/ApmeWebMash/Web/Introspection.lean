-- SUMMARY: Which introspections become an identity, and where the tenant of an identity comes from.
import ApmeWebMash.Web.Auth

/-! # Introspections

An introspection is accepted at one moment, and names a subject and a tenant.
The tenant is the member `tenant_id`, wherever the authority sent one. The code
also takes `provider_tenant` where that member is not a string. -/

namespace Web

/-! ## What the service requires -/

/-- A claim that is short enough and reads the same everywhere. -/
structure PlainClaim (value : Str) (maximum : Nat) : Prop where
  ne_nil : value ≠ []
  len_le : Str.len value ≤ maximum
  trimmed : Str.trim value = value
  printable : ∀ c ∈ value, Str.isControl c = false

section
variable (uuid : UuidCrate) (now : Nat) (identity : Introspection) (audience issuer : Str)
  (requiredScopes : List Str)

/-- The claim is there, and writes the identifier. -/
def UuidClaim (claim : Option Str) (id : Uuid) : Prop :=
  ∃ value ∈ claim, PlainClaim value 128 ∧ uuid.parse value = some id

/-- The token is active, is meant for this service, is used within its lifetime
    and grants what is asked for. -/
structure Granted : Prop where
  active : identity.active = true
  aud : identity.aud = some audience
  iss : identity.iss = some issuer
  exp : ∃ expiry ∈ identity.exp, now < expiry
  nbf : ∀ notBefore ∈ identity.nbf, notBefore ≤ now
  scopes : ∀ required ∈ requiredScopes, identity.hasScope required = true

/-- The tenant that the authority states: `provider_tenant` counts where there is
    no member `tenant_id`, and only there. -/
def statedTenant : Option Str :=
  match Json.lookup "tenant_id" identity.rest with
  | some value => value.asStr
  | none => identity.providerTenant

/-- The member `tenant_id` is there, and is not a string. -/
def MistypedTenant : Prop :=
  ∃ value, Json.lookup "tenant_id" identity.rest = some value ∧ value.asStr = none

/-- The introspection shows this identity. -/
structure Shows (found : VerifiedIdentity) : Prop where
  granted : Granted now identity audience issuer requiredScopes
  subject : UuidClaim uuid identity.sub found.subject
  tenant : UuidClaim uuid (statedTenant identity) found.tenantId

/-- Exactly the identity that the introspection shows is returned, and without
    one the call is unauthorized. -/
def ClosedFor (outcome : Except AuthError VerifiedIdentity) : Prop :=
  (∀ found, outcome = .ok found ↔ Shows uuid now identity audience issuer requiredScopes found) ∧
    ∀ error, outcome = .error error → error = .unauthorized

end

variable {uuid : UuidCrate} {now : Nat} {identity : Introspection} {audience issuer : Str}
  {requiredScopes : List Str}

/-! ## Claims -/

theorem validateClaim_eq_some {value result : Str} {maximum : Nat} :
    validateClaim value maximum = some result ↔ PlainClaim value maximum ∧ value = result := by
  rw [validateClaim]
  split
  · rename_i h
    refine iff_of_false (fun h' => by cases h') fun ⟨plain, _⟩ => ?_
    rw [Bool.or_eq_true, Bool.or_eq_true, Bool.or_eq_true, decide_eq_true_iff, decide_eq_true_iff,
      decide_eq_true_iff, List.any_eq_true] at h
    rcases h with ((hnil | hlen) | htrim) | ⟨c, hc, hcontrol⟩
    · exact plain.ne_nil hnil
    · exact absurd plain.len_le (Nat.not_le.mpr hlen)
    · exact htrim plain.trimmed
    · exact absurd hcontrol (Bool.eq_false_iff.mp (plain.printable c hc))
  · rename_i h
    rw [Bool.not_eq_true, Bool.or_eq_false_iff, Bool.or_eq_false_iff, Bool.or_eq_false_iff,
      decide_eq_false_iff_not, decide_eq_false_iff_not, decide_eq_false_iff_not,
      List.any_eq_false] at h
    obtain ⟨⟨⟨hnil, hlen⟩, htrim⟩, hcontrol⟩ := h
    have plain : PlainClaim value maximum :=
      ⟨hnil, Nat.not_lt.mp hlen, not_not.mp htrim, fun c hc => Bool.eq_false_iff.mpr (hcontrol c hc)⟩
    rw [Option.some_inj]
    exact (and_iff_right plain).symm

theorem parseUuidClaim_eq_some {claim : Option Str} {id : Uuid} :
    parseUuidClaim uuid claim = some id ↔ UuidClaim uuid claim id := by
  rw [parseUuidClaim, Option.bind_eq_some_iff]
  constructor
  · rintro ⟨value, hvalue, hparse⟩
    obtain ⟨text, hclaim, htext⟩ := Option.bind_eq_some_iff.mp hvalue
    obtain ⟨plain, rfl⟩ := validateClaim_eq_some.mp htext
    exact ⟨text, hclaim, plain, hparse⟩
  · rintro ⟨value, hclaim, plain, hparse⟩
    exact ⟨value, Option.bind_eq_some_iff.mpr ⟨value, hclaim, validateClaim_eq_some.mpr ⟨plain, rfl⟩⟩,
      hparse⟩

/-- The comparison of the claims, as the code writes it, rejects what is not granted. -/
theorem granted_iff :
    Granted now identity audience issuer requiredScopes ↔
      ¬ (!identity.active || identity.aud ≠ some audience || identity.iss ≠ some issuer ||
        identity.exp.all (· ≤ now) || identity.nbf.any (· > now) ||
        requiredScopes.any (fun required => !identity.hasScope required)) = true := by
  rw [Bool.not_eq_true]
  simp only [Bool.or_eq_false_iff, decide_eq_false_iff_not, not_not, Bool.not_eq_false']
  constructor
  · rintro ⟨active, aud, iss, ⟨expiry, hexpiry, hlt⟩, nbf, scopes⟩
    refine ⟨⟨⟨⟨⟨active, aud⟩, iss⟩, ?_⟩, ?_⟩, ?_⟩
    · rw [Option.mem_def.mp hexpiry]
      exact decide_eq_false (Nat.not_le.mpr hlt)
    -- an absent `nbf` passes, and an absent `exp` does not
    · cases hnbf : identity.nbf with
      | none => rfl
      | some notBefore => exact decide_eq_false (Nat.not_lt.mpr (nbf notBefore hnbf))
    · rw [List.any_eq_false]
      intro required hrequired
      simp [scopes required hrequired]
  · rintro ⟨⟨⟨⟨⟨active, aud⟩, iss⟩, hexp⟩, hnbf⟩, hscopes⟩
    refine ⟨active, aud, iss, ?_, ?_, ?_⟩
    · cases hexpiry : identity.exp with
      | none => simp [hexpiry] at hexp
      | some expiry =>
        rw [hexpiry] at hexp
        exact ⟨expiry, rfl, Nat.not_le.mp (of_decide_eq_false hexp)⟩
    · intro notBefore hmem
      rw [Option.mem_def.mp hmem] at hnbf
      exact Nat.not_lt.mp (of_decide_eq_false hnbf)
    · intro required hrequired
      simpa using List.any_eq_false.mp hscopes required hrequired

/-! ## What the code returns -/

theorem validateIdentity_error {clock : Clock} {error : AuthError}
    (h : validateIdentity uuid clock identity audience issuer requiredScopes = .error error) :
    error = .unauthorized := by
  rw [validateIdentity] at h
  split at h
  · exact (Except.error.inj h).symm
  · split at h
    · exact (Except.error.inj h).symm
    · split at h
      · exact (Except.error.inj h).symm
      · cases h

/-- The code takes the tenant from its own choice of the two claims. -/
theorem validateIdentity_eq_ok {found : VerifiedIdentity} :
    validateIdentity uuid ⟨now, now⟩ identity audience issuer requiredScopes = .ok found ↔
      Granted now identity audience issuer requiredScopes ∧
        UuidClaim uuid identity.sub found.subject ∧
        UuidClaim uuid (tenantClaim identity) found.tenantId := by
  rw [validateIdentity, granted_iff, ← parseUuidClaim_eq_some, ← parseUuidClaim_eq_some]
  split
  · rename_i h
    exact iff_of_false (fun h' => by cases h') fun h' => h'.1 h
  · rename_i h
    rw [and_iff_right h]
    cases parseUuidClaim uuid identity.sub with
    | none => simp
    | some subject =>
      cases parseUuidClaim uuid (tenantClaim identity) with
      | none => simp
      | some tenantId =>
        obtain ⟨subject', tenantId'⟩ := found
        simp

/-- Where the member is not a string, the code takes the other claim. -/
theorem tenantClaim_of_mistyped (h : MistypedTenant identity) :
    tenantClaim identity = identity.providerTenant ∧ statedTenant identity = none := by
  obtain ⟨value, hlookup, hstr⟩ := h
  rw [tenantClaim, statedTenant, hlookup, Option.bind_some, hstr]
  exact ⟨Option.none_or, hstr⟩

theorem tenantClaim_of_not_mistyped (h : ¬ MistypedTenant identity) :
    tenantClaim identity = statedTenant identity := by
  rw [tenantClaim, statedTenant]
  cases hlookup : Json.lookup "tenant_id" identity.rest with
  | none => rfl
  | some value =>
    cases hstr : value.asStr with
    | none => exact absurd ⟨value, hlookup, hstr⟩ h
    | some tenant =>
      rw [Option.bind_some, hstr, Option.some_or]
      exact hstr.symm

/-- Nothing is shown by an introspection whose member is not a string. -/
theorem not_shows_of_mistyped (h : MistypedTenant identity) (found : VerifiedIdentity) :
    ¬ Shows uuid now identity audience issuer requiredScopes found := by
  intro hshows
  obtain ⟨value, hvalue, -⟩ := hshows.tenant
  rw [(tenantClaim_of_mistyped h).2] at hvalue
  cases hvalue

/-- The service fails closed, unless `provider_tenant` names a tenant in place of
    a member `tenant_id` of another type and nothing else is wrong. -/
theorem validateIdentity_closed_iff :
    ClosedFor uuid now identity audience issuer requiredScopes
        (validateIdentity uuid ⟨now, now⟩ identity audience issuer requiredScopes) ↔
      ¬ (MistypedTenant identity ∧ Granted now identity audience issuer requiredScopes ∧
        (∃ subject, UuidClaim uuid identity.sub subject) ∧
        ∃ tenant, UuidClaim uuid identity.providerTenant tenant) := by
  constructor
  · rintro ⟨hok, -⟩ ⟨hmistyped, granted, ⟨subject, hsubject⟩, tenant, htenant⟩
    rw [← (tenantClaim_of_mistyped hmistyped).1] at htenant
    exact not_shows_of_mistyped hmistyped ⟨subject, tenant⟩
      ((hok _).mp (validateIdentity_eq_ok.mpr ⟨granted, hsubject, htenant⟩))
  · intro h
    refine ⟨fun found => ?_, fun error => validateIdentity_error⟩
    rw [validateIdentity_eq_ok]
    by_cases hmistyped : MistypedTenant identity
    · refine iff_of_false ?_ (not_shows_of_mistyped hmistyped found)
      rintro ⟨granted, hsubject, htenant⟩
      rw [(tenantClaim_of_mistyped hmistyped).1] at htenant
      exact h ⟨hmistyped, granted, ⟨_, hsubject⟩, _, htenant⟩
    · rw [tenantClaim_of_not_mistyped hmistyped]
      exact ⟨fun ⟨granted, hsubject, htenant⟩ => ⟨granted, hsubject, htenant⟩,
        fun ⟨granted, hsubject, htenant⟩ => ⟨granted, hsubject, htenant⟩⟩

/-- A number under `tenant_id` is passed over, and the provider's tenant is taken. -/
theorem not_closed_number :
    let tenant : Str := "6f1d8a52-3f0b-4d7c-9a53-0e8f5b2c7d14"
    let identity : Introspection := {
      active := true
      aud := some ("apme-web" : Str)
      iss := some ("shared-auth" : Str)
      exp := some 2000
      nbf := none
      sub := some tenant
      hasScope := (· = casesReadScope)
      rest := [("tenant_id", .number "42")]
      providerTenant := some tenant }
    ¬ ClosedFor .hyphenated 1000 identity "apme-web" "shared-auth" [casesReadScope]
      (validateIdentity .hyphenated ⟨1000, 1000⟩ identity "apme-web" "shared-auth"
        [casesReadScope]) := by
  intro tenant identity hclosed
  have hmistyped : MistypedTenant identity := ⟨.number "42", rfl, rfl⟩
  let id : Uuid := 0x6f1d8a523f0b4d7c9a530e8f5b2c7d14
  have hok : validateIdentity .hyphenated ⟨1000, 1000⟩ identity "apme-web" "shared-auth"
      [casesReadScope] = .ok ⟨id, id⟩ := by
    decide +kernel
  exact not_shows_of_mistyped hmistyped _ ((hclosed.1 _).mp hok)

end Web
