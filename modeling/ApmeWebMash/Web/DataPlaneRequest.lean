-- SUMMARY: The handler of data-plane requests, and that it calls a transport only for the verified tenant of an authorised token.
import ApmeWebMash.Web.Auth

/-! # Data-plane requests

The handler `data_plane_request`. It checks the bearer token, the identity, the
tenant and the avenue, in this order, and then calls one of four transports. It
runs in a monad that keeps the calls it makes, so that a call made too early
would show. -/

namespace Web

def tenantHeader : Str := "x-apme-tenant-id"

structure WebError where
  status : Nat
  code : Str
deriving DecidableEq

/-- `WebError::unavailable`. -/
def WebError.unavailable : WebError := ⟨503, "temporarily_unavailable"⟩

inductive Operation where
  | caseProjection
  | apiCases
  | statefulCases
  | asyncStatus
deriving DecidableEq

inductive Avenue where
  | directReadOnlyDatabase
  | statelessHttp
  | statefulMtlsTcp
  | durableJetStream
deriving DecidableEq

/-- `choose`. -/
def choose : Operation → Avenue
  | .caseProjection => .directReadOnlyDatabase
  | .apiCases => .statelessHttp
  | .statefulCases => .statefulMtlsTcp
  | .asyncStatus => .durableJetStream

/-- A call of a transport, with its arguments. -/
inductive TransportCall where
  | direct (tenantId : Uuid)
  | http (token : Str) (tenantId : Uuid)
  | tcp (requestId tenantId : Uuid) (token : Str)
  | nats (operationId : Uuid)
deriving DecidableEq

/-- `AppState`, as far as the handler uses it. A transport is the outcome of its
    calls; it is `none` when it is not configured or its feature is not
    compiled in, which the handler answers alike. -/
structure AppState where
  auth : SharedAuthVerifier
  database : Option (Uuid → Option Json)
  http : Option (Str → Uuid → Option Json)
  tcp : Option (Uuid → Uuid → Str → Option Json)
  nats : Option (Uuid → Option Json)

/-- What a run takes from its surroundings: the clock, and the identifier that
    `Uuid::new_v4` makes. -/
structure Surroundings where
  clock : Clock
  fresh : Uuid

/-! ## Headers -/

section
variable (http : HttpCrate) (uuid : UuidCrate)

/-- The conditions of `bearer` on a token. -/
def isToken (value : Str) : Bool :=
  value ≠ [] && Str.len value ≤ 16 * 1024 && !value.any Str.isWhitespace && !value.any Str.isControl

/-- `bearer`. -/
def bearer (headers : HeaderMap) : Except WebError Str :=
  let token := (((headers.get "authorization").bind http.toStr).bind
    (Str.stripPrefix · "Bearer ")).map Str.trim |>.filter isToken
  token.elim (.error ⟨401, "unauthorized"⟩) .ok

/-- The tenant that a request names. -/
def requestedTenant (headers : HeaderMap) : Option Uuid :=
  ((headers.get tenantHeader).bind http.toStr).bind uuid.parse

/-- `tenant_id`. -/
def tenantId (headers : HeaderMap) : Except WebError Uuid :=
  (requestedTenant http uuid headers).elim (.error ⟨422, "invalid_tenant"⟩) .ok

/-- `map_auth_error`. -/
def mapAuthError : AuthError → WebError
  | .unauthorized => ⟨401, "unauthorized"⟩
  | .unavailable | .configuration => .unavailable

/-- The operation of an avenue. -/
def operation (avenue : Str) : Except WebError Operation :=
  if avenue = "direct" then .ok .caseProjection
  else if avenue = "http" then .ok .apiCases
  else if avenue = "tcp" then .ok .statefulCases
  else if avenue = "nats" then .ok .asyncStatus
  else .error ⟨404, "unknown_data_plane_avenue"⟩

/-! ## The handler -/

/-- A run that may end early with an error, and the calls it makes. -/
abbrev Handler := ExceptT WebError (StateM (List TransportCall))

/-- The outcome of a call, where its transport is configured. -/
def AppState.outcome (state : AppState) : TransportCall → Option (Option Json)
  | .direct tenantId => state.database.map fun database => database tenantId
  | .http token tenantId => state.http.map fun transport => transport token tenantId
  | .tcp requestId tenantId token => state.tcp.map fun channel => channel requestId tenantId token
  | .nats operationId => state.nats.map fun transport => transport operationId

/-- Make a call, if its transport is configured. -/
def callTransport (state : AppState) (call : TransportCall) : Handler Json := do
  match state.outcome call with
  | none => throw .unavailable
  | some outcome =>
    modify (· ++ [call])
    match outcome with
    | none => throw .unavailable
    | some payload => pure payload

/-- The part of `data_plane_request` after the check of the tenant. -/
def serve (state : AppState) (surroundings : Surroundings) (avenue token : Str)
    (identity : VerifiedIdentity) : Handler Json := do
  let operation ← operation avenue
  match choose operation with
  | .directReadOnlyDatabase => callTransport state (.direct identity.tenantId)
  | .statelessHttp => callTransport state (.http token identity.tenantId)
  | .statefulMtlsTcp => callTransport state (.tcp surroundings.fresh identity.tenantId token)
  | .durableJetStream => callTransport state (.nats surroundings.fresh)

/-- `data_plane_request`. -/
def dataPlaneRequest (state : AppState) (surroundings : Surroundings) (avenue : Str)
    (headers : HeaderMap) : Handler Json := do
  let token ← bearer http headers
  let identity ←
    (state.auth.verifyUser uuid surroundings.clock token [casesReadScope]).mapError mapAuthError
  let requestedTenant ← tenantId http uuid headers
  if requestedTenant ≠ identity.tenantId then throw ⟨403, "forbidden"⟩
  else serve state surroundings avenue token identity

/-- A run from no calls: the response, and the calls that were made. -/
def handle (state : AppState) (surroundings : Surroundings) (avenue : Str) (headers : HeaderMap) :
    Except WebError Json × List TransportCall :=
  (dataPlaneRequest http uuid state surroundings avenue headers).run.run []

end

/-! ## What a request is allowed -/

section
variable (http : HttpCrate) (uuid : UuidCrate) (state : AppState) (surroundings : Surroundings)

/-- The request brings a token that Shared Auth vouches for, and names the
    tenant of the identity. -/
structure Authorized (headers : HeaderMap) (token : Str) (identity : VerifiedIdentity) : Prop where
  bearer : bearer http headers = .ok token
  introspected : ∃ introspection,
    state.auth.introspect token state.auth.audience [casesReadScope] = .ok introspection ∧
    validateIdentity uuid surroundings.clock introspection state.auth.audience state.auth.issuer
      [casesReadScope] = .ok identity
  tenant : requestedTenant http uuid headers = some identity.tenantId

/-- The call is one of the avenue, for the tenant of the identity and with the
    token. -/
def TransportCall.Serves (avenue token : Str) (identity : VerifiedIdentity) : TransportCall → Prop
  | .direct tenantId => avenue = "direct" ∧ tenantId = identity.tenantId
  | .http bearerToken tenantId =>
    avenue = "http" ∧ tenantId = identity.tenantId ∧ bearerToken = token
  | .tcp requestId tenantId bearerToken =>
    avenue = "tcp" ∧ tenantId = identity.tenantId ∧ bearerToken = token ∧
      requestId = surroundings.fresh
  | .nats operationId => avenue = "nats" ∧ operationId = surroundings.fresh

/-- The transport of the call is configured. -/
def AppState.Configured : TransportCall → Prop
  | .direct _ => state.database.isSome
  | .http _ _ => state.http.isSome
  | .tcp _ _ _ => state.tcp.isSome
  | .nats _ => state.nats.isSome

/-- The call that a request may lead to. -/
def Permitted (avenue : Str) (headers : HeaderMap) (call : TransportCall) : Prop :=
  ∃ token identity, Authorized http uuid state surroundings headers token identity ∧
    call.Serves surroundings avenue token identity ∧ state.Configured call

/-- The run makes no call and ends with one of the errors of the handler. -/
def Refused (run : Except WebError Json × List TransportCall) : Prop :=
  run.2 = [] ∧ ∃ error, run.1 = .error error ∧ error.status ∈ [401, 403, 404, 422, 503]

end

variable {http : HttpCrate} {uuid : UuidCrate} {state : AppState} {surroundings : Surroundings}
  {avenue : Str} {headers : HeaderMap}

/-! ## Steps of the handler -/

/-- A transport is called once, unless it is not configured. -/
theorem run_callTransport (state : AppState) (call : TransportCall) (calls : List TransportCall) :
    (callTransport state call).run.run calls =
      match state.outcome call with
      | none => (.error .unavailable, calls)
      | some outcome => (outcome.elim (.error .unavailable) .ok, calls ++ [call]) := by
  rw [callTransport]
  cases state.outcome call with
  | none => rfl
  | some outcome => cases outcome <;> rfl

theorem configured_iff_outcome {call : TransportCall} :
    state.Configured call ↔ (state.outcome call).isSome := by
  cases call <;> simp [AppState.Configured, AppState.outcome]

/-- A check that passes is gone from the run. -/
theorem run_bind_ok {α β : Type} {check : Except WebError α} {a : α} (h : check = .ok a)
    (next : α → Handler β) (calls : List TransportCall) :
    ((liftM check : Handler α) >>= next).run.run calls = (next a).run.run calls := by
  subst h
  rfl

/-- A check that fails ends the run. -/
theorem run_bind_error {α β : Type} {check : Except WebError α} {error : WebError}
    (h : check = .error error) (next : α → Handler β) (calls : List TransportCall) :
    ((liftM check : Handler α) >>= next).run.run calls = (.error error, calls) := by
  subst h
  rfl

theorem handle_authorized {token : Str} {identity : VerifiedIdentity}
    (h : Authorized http uuid state surroundings headers token identity) :
    handle http uuid state surroundings avenue headers =
      (serve state surroundings avenue token identity).run.run [] := by
  have hverify : state.auth.verifyUser uuid surroundings.clock token [casesReadScope] =
      .ok identity := verifyUser_eq_ok.mpr h.introspected
  have hmapped : (state.auth.verifyUser uuid surroundings.clock token [casesReadScope]).mapError
      mapAuthError = .ok identity := by
    rw [hverify]
    rfl
  have htenant : tenantId http uuid headers = .ok identity.tenantId := by
    rw [tenantId, h.tenant, Option.elim_some]
  rw [handle, dataPlaneRequest, run_bind_ok h.bearer, run_bind_ok hmapped, run_bind_ok htenant,
    if_neg (not_not.mpr rfl)]

/-! ## Refusals -/

theorem bearer_cases (http : HttpCrate) (headers : HeaderMap) :
    bearer http headers = .error ⟨401, "unauthorized"⟩ ∨
      ∃ token, bearer http headers = .ok token := by
  simp only [bearer]
  cases Option.filter isToken ((((headers.get "authorization").bind http.toStr).bind
      (Str.stripPrefix · "Bearer ")).map Str.trim) with
  | none => exact .inl rfl
  | some token => exact .inr ⟨token, rfl⟩

theorem tenantId_cases (http : HttpCrate) (uuid : UuidCrate) (headers : HeaderMap) :
    tenantId http uuid headers = .error ⟨422, "invalid_tenant"⟩ ∨
      ∃ tenant, requestedTenant http uuid headers = some tenant ∧
        tenantId http uuid headers = .ok tenant := by
  rw [tenantId]
  cases requestedTenant http uuid headers with
  | none => exact .inl rfl
  | some tenant => exact .inr ⟨tenant, rfl, rfl⟩

/-- Whoever is not authorised is refused by the first check that fails. -/
theorem refused_of_not_authorized
    (h : ∀ token identity, ¬ Authorized http uuid state surroundings headers token identity) :
    Refused (handle http uuid state surroundings avenue headers) := by
  have hmapped : ∀ x : Except AuthError VerifiedIdentity,
      (∃ error, x = .error error ∧ x.mapError mapAuthError = .error (mapAuthError error)) ∨
      ∃ identity, x = .ok identity ∧ x.mapError mapAuthError = .ok identity := by
    rintro (error | identity)
    · exact .inl ⟨error, rfl, rfl⟩
    · exact .inr ⟨identity, rfl, rfl⟩
  rw [handle, dataPlaneRequest]
  -- the checks of the handler, in its order: bearer, introspection, tenant
  rcases bearer_cases http headers with hbearer | ⟨token, hbearer⟩
  · rw [run_bind_error hbearer]
    exact ⟨rfl, _, rfl, by decide⟩
  · rw [run_bind_ok hbearer]
    rcases hmapped (state.auth.verifyUser uuid surroundings.clock token [casesReadScope]) with
      ⟨error, -, hverify⟩ | ⟨identity, hidentity, hverify⟩
    · rw [run_bind_error hverify]
      refine ⟨rfl, _, rfl, ?_⟩
      cases error <;> decide
    · rw [run_bind_ok hverify]
      rcases tenantId_cases http uuid headers with htenant | ⟨tenant, hrequested, htenant⟩
      · rw [run_bind_error htenant]
        exact ⟨rfl, _, rfl, by decide⟩
      · rw [run_bind_ok htenant]
        by_cases hsame : tenant = identity.tenantId
        · exact absurd ⟨hbearer, verifyUser_eq_ok.mp hidentity, hsame ▸ hrequested⟩
            (h token identity)
        · rw [if_pos hsame]
          exact ⟨rfl, _, rfl, by decide⟩

/-! ## Avenues -/

/-- What each avenue stands for. -/
theorem operation_cases (avenue : Str) :
    (avenue = "direct" ∧ operation avenue = .ok .caseProjection) ∨
    (avenue = "http" ∧ operation avenue = .ok .apiCases) ∨
    (avenue = "tcp" ∧ operation avenue = .ok .statefulCases) ∨
    (avenue = "nats" ∧ operation avenue = .ok .asyncStatus) ∨
    (avenue ∉ (["direct", "http", "tcp", "nats"] : List Str) ∧
      operation avenue = .error ⟨404, "unknown_data_plane_avenue"⟩) := by
  rw [operation]
  split
  · rename_i h
    exact .inl ⟨h, rfl⟩
  · split
    · rename_i h
      exact .inr (.inl ⟨h, rfl⟩)
    · split
      · rename_i h
        exact .inr (.inr (.inl ⟨h, rfl⟩))
      · split
        · rename_i h
          exact .inr (.inr (.inr (.inl ⟨h, rfl⟩)))
        · rename_i hdirect hhttp htcp hnats
          refine .inr (.inr (.inr (.inr ⟨?_, rfl⟩)))
          simp only [List.mem_cons, List.not_mem_nil, or_false, not_or]
          exact ⟨hdirect, hhttp, htcp, hnats⟩

/-- For one token and one identity an avenue has one call. -/
theorem TransportCall.Serves.unique {token : Str} {identity : VerifiedIdentity}
    {call call' : TransportCall} (h : call.Serves surroundings avenue token identity)
    (h' : call'.Serves surroundings avenue token identity) : call = call' := by
  have hnodup : (["direct", "http", "tcp", "nats"] : List Str).Nodup := by decide
  simp only [List.nodup_cons, List.mem_cons, List.not_mem_nil, or_false, not_or] at hnodup
  obtain ⟨⟨hdh, hdt, hdn⟩, ⟨hht, hhn⟩, htn, -⟩ := hnodup
  cases call <;> cases call' <;> simp only [Serves] at h h' <;> grind

/-- The run makes the one call that serves the request, or it is refused for want
    of its transport. -/
def Served (state : AppState) (surroundings : Surroundings) (avenue token : Str)
    (identity : VerifiedIdentity) (run : Except WebError Json × List TransportCall) : Prop :=
  (∃ call : TransportCall, call.Serves surroundings avenue token identity ∧ state.Configured call ∧
    run.2 = [call]) ∨
  ((∀ call : TransportCall, call.Serves surroundings avenue token identity →
    ¬ state.Configured call) ∧ Refused run)

theorem served_callTransport {call : TransportCall} {token : Str} {identity : VerifiedIdentity}
    (hserves : call.Serves surroundings avenue token identity) :
    Served state surroundings avenue token identity ((callTransport state call).run.run []) := by
  rw [run_callTransport]
  cases houtcome : state.outcome call with
  | none =>
    refine .inr ⟨fun call' hcall' => ?_, rfl, _, rfl, by decide⟩
    rw [hcall'.unique hserves, configured_iff_outcome, houtcome]
    exact Bool.false_ne_true
  | some outcome =>
    refine .inl ⟨call, hserves, ?_, rfl⟩
    rw [configured_iff_outcome, houtcome]
    rfl

/-- After the checks the handler serves the request. -/
theorem served_serve (state : AppState) (surroundings : Surroundings) (avenue token : Str)
    (identity : VerifiedIdentity) :
    Served state surroundings avenue token identity
      ((serve state surroundings avenue token identity).run.run []) := by
  rw [serve]
  rcases operation_cases avenue with
    ⟨hname, hop⟩ | ⟨hname, hop⟩ | ⟨hname, hop⟩ | ⟨hname, hop⟩ | ⟨hname, hop⟩
  · rw [run_bind_ok hop]
    exact served_callTransport ⟨hname, rfl⟩
  · rw [run_bind_ok hop]
    exact served_callTransport ⟨hname, rfl, rfl⟩
  · rw [run_bind_ok hop]
    exact served_callTransport ⟨hname, rfl, rfl, rfl⟩
  · rw [run_bind_ok hop]
    exact served_callTransport ⟨hname, rfl⟩
  · rw [run_bind_error hop]
    refine .inr ⟨fun call hserves => ?_, rfl, _, rfl, by decide⟩
    simp only [List.mem_cons, List.not_mem_nil, or_false, not_or] at hname
    obtain ⟨hdirect, hhttp, htcp, hnats⟩ := hname
    cases call with
    | direct _ => exact absurd hserves.1 hdirect
    | http _ _ => exact absurd hserves.1 hhttp
    | tcp _ _ _ => exact absurd hserves.1 htcp
    | nats _ => exact absurd hserves.1 hnats

/-! ## No call without authorisation -/

/-- The handler makes exactly the call that a request is permitted, and when it
    is permitted none, it makes none and answers with an error. -/
theorem calls_permitted (http : HttpCrate) (uuid : UuidCrate) (state : AppState)
    (surroundings : Surroundings) (avenue : Str) (headers : HeaderMap) :
    (∀ call, Permitted http uuid state surroundings avenue headers call →
      (handle http uuid state surroundings avenue headers).2 = [call]) ∧
    ((∀ call, ¬ Permitted http uuid state surroundings avenue headers call) →
      Refused (handle http uuid state surroundings avenue headers)) := by
  constructor
  · rintro call ⟨token, identity, hauthorized, hserves, hconfigured⟩
    rw [handle_authorized hauthorized]
    rcases served_serve state surroundings avenue token identity with
      ⟨call', hserves', -, hrun⟩ | ⟨hnone, -⟩
    · rw [hrun, hserves'.unique hserves]
    · exact absurd hconfigured (hnone call hserves)
  · intro hnone
    by_cases hauthorized : ∃ token identity,
        Authorized http uuid state surroundings headers token identity
    · obtain ⟨token, identity, hauthorized⟩ := hauthorized
      rw [handle_authorized hauthorized]
      rcases served_serve state surroundings avenue token identity with
        ⟨call, hserves, hconfigured, -⟩ | ⟨-, hrefused⟩
      · exact absurd ⟨token, identity, hauthorized, hserves, hconfigured⟩ (hnone call)
      · exact hrefused
    · exact refused_of_not_authorized fun token identity h => hauthorized ⟨token, identity, h⟩

-- An authorised request on the HTTP avenue, for the tenant that the introspection names.
example :
    let introspection : Introspection := {
      active := true
      aud := some ("apme" : Str)
      iss := some ("issuer" : Str)
      exp := some 20
      nbf := none
      sub := some ("11111111-1111-4111-8111-111111111111" : Str)
      hasScope := fun scope => scope == casesReadScope
      rest := [("tenant_id", .string "22222222-2222-4222-8222-222222222222")]
      providerTenant := none }
    let state : AppState := {
      auth := ⟨fun _ _ _ => .ok introspection, "apme", "issuer"⟩
      database := none
      http := some fun _ _ => some .null
      tcp := none
      nats := none }
    (handle .ascii .hyphenated state ⟨⟨10, 10⟩, 7⟩ "http"
        [("authorization", Utf8.encode "Bearer t"),
          ("x-apme-tenant-id", Utf8.encode "22222222-2222-4222-8222-222222222222")]).2 =
      [.http "t" 0x22222222222242228222222222222222] := by
  decide +kernel

end Web
