-- SUMMARY: The Oracle/Fn adapter: from the bytes on the socket to the dispatcher and back.
import ApmeWebMash.Lambdas.CloudEvent
import ApmeWebMash.OracleFn.Response

/-! # Oracle/Fn

`handle_stream` serves one connection: it reads a request, takes the logical
method and path from the headers that the Fn runtime adds, decodes the body and
dispatches. Every request that was read is answered with the outer status 200. -/

namespace OracleFn

open Lambdas (CloudEvent.nonBlank CloudEvent.validate CloudEvent.validateEnvelope CloudEvent.data
  FunctionRequest FunctionResponse Host RouteSpec ValidRequestId dispatchRequest errorBody
  tooLargeBody)

/-- `sanitize_request_id` of this adapter. -/
def sanitizeRequestId (value : Str) : Option Str := Lambdas.RequestId.sanitize value

/-- `generated_request_id` of this adapter. -/
def generatedRequestId (host : Host) : Str := Lambdas.RequestId.generated "scintilla-fn-" host

/-- `first_header`. -/
def firstHeader (headers : BTreeMap Str Str) (names : List Str) : Option Str :=
  names.findSome? fun name => (headers.get name).bind CloudEvent.nonBlank

/-- `default_headers`. -/
def defaultHeaders (requestId : Str) : BTreeMap Str Str :=
  BTreeMap.ofList [("cache-control", "no-store"), ("content-type", "application/json"),
    ("x-request-id", requestId)]

/-- `error_response`. -/
def errorResponse (statusCode : Nat) (body : Json) (requestId : Str) : FunctionResponse :=
  ⟨statusCode, defaultHeaders requestId, body⟩

/-! ## The request path -/

/-- Everything behind the first occurrence of `pattern`. -/
def afterFirst (pattern : Str) : Str → Option Str
  | [] => none
  | c :: s => if pattern <+: c :: s then some ((c :: s).drop pattern.length) else afterFirst pattern s

/-- `request_path`: the path of a request target or of an absolute URL. -/
def requestPath (value : Str) : Str :=
  let trimmed := Str.trim value
  let pathAndQuery : Str :=
    match afterFirst "://" trimmed with
    | some authority =>
      let path : Str := authority.dropWhile (· ≠ '/')
      if path = [] then "/" else path
    | none => trimmed
  let path : Str := Str.trim (pathAndQuery.takeWhile fun c => c ≠ '?' && c ≠ '#')
  if path = [] then "/"
  else if Str.startsWith path "/" then path
  else '/' :: path

theorem afterFirst_eq_none {pattern s : Str} (h : ¬ pattern <:+: s) : afterFirst pattern s = none := by
  induction s with
  | nil => rfl
  | cons c s ih =>
    rw [afterFirst, if_neg fun hprefix => h hprefix.isInfix]
    exact ih fun hwithin => h (hwithin.trans (List.suffix_cons c s).isInfix)

/-- An absolute path stands for itself. -/
theorem requestPath_eq_self {path : Str} (habsolute : Str.startsWith path "/")
    (hchars : ∀ c ∈ path, c ≠ '?' ∧ c ≠ '#' ∧ Str.isWhitespace c = false)
    (hscheme : ¬ ("://" : Str) <:+: path) : requestPath path = path := by
  have htrim : Str.trim path = path := Str.trim_eq_self fun c hc => (hchars c hc).2.2
  have hquery : path.takeWhile (fun c => c ≠ '?' && c ≠ '#') = path :=
    List.takeWhile_eq_self_iff.mpr fun c hc => by simp [hchars c hc]
  have hne : path ≠ [] := by
    rintro rfl
    exact absurd habsolute (by decide)
  simp only [requestPath, htrim, afterFirst_eq_none hscheme, hquery, if_neg hne, if_pos habsolute]

/-! ## The payload -/

section
variable (serde : SerdeJson)

/-- `validate_structured_cloud_event`. -/
def validateStructuredCloudEvent (value : Json) : Except Str Unit :=
  CloudEvent.validateEnvelope value

/-- The check of `decode_payload` on a binary event. -/
def checkBinaryEvent (headers : BTreeMap Str Str) : Except Str Unit :=
  match firstHeader headers ["ce-specversion", "fn-http-h-ce-specversion"] with
  | none => .ok ()
  | some version =>
    CloudEvent.validate (some version) fun name =>
      (firstHeader headers [("ce-" : Str) ++ name, ("fn-http-h-ce-" : Str) ++ name]).isSome

/-- `decode_payload`. -/
def decodePayload (headers : BTreeMap Str Str) (contentType : Str) (body : List UInt8) :
    Except Str Json :=
  if body = [] then .ok (.object [])
  else
    match serde.fromSlice body with
    | none => .error "invalid_json"
    | some value =>
      if Str.startsWith contentType "application/cloudevents+json" then do
        validateStructuredCloudEvent value
        .ok (CloudEvent.data value)
      else do
        checkBinaryEvent headers
        .ok value

/-! ## The connection -/

/-- The headers that an identifier is taken from, in order. -/
def requestIdHeaders : List Str :=
  ["fn-call-id", "ce-id", "fn-http-h-ce-id", "x-request-id", "fn-http-h-x-request-id",
    "traceparent", "fn-http-h-traceparent"]

/-- The identifier under which `handle_stream` handles a request. -/
def fnRequestId (host : Host) (headers : BTreeMap Str Str) : Str :=
  ((firstHeader headers requestIdHeaders).bind sanitizeRequestId).getD (generatedRequestId host)

/-- The content type of a request, in lower case. -/
def contentType (headers : BTreeMap Str Str) : Str :=
  Str.toAsciiLowercase
    ((firstHeader headers ["content-type", "fn-http-h-content-type"]).getD [])

/-- What becomes of a connection before the dispatcher. -/
inductive FnInput where
  | closed
  | crashed
  | failed (outerStatus : Nat) (response : FunctionResponse)
  | request (request : FunctionRequest)

/-- The part of `handle_stream` between the reader and the dispatcher. -/
def fnRequest (host : Host) (request : ParsedRequest) (spec : RouteSpec) :
    Except FunctionResponse FunctionRequest :=
  match decodePayload serde request.headers (contentType request.headers) request.body with
  | .error error => .error (errorResponse 400 (errorBody error) (fnRequestId host request.headers))
  | .ok payload => .ok {
      method := (firstHeader request.headers ["fn-http-method"]).getD spec.method
      path := ((firstHeader request.headers ["fn-http-request-url"]).map requestPath).getD spec.path
      body := payload
      requestId := fnRequestId host request.headers
      eventBytes := request.body.length }

/-- The part of `handle_stream` before the dispatcher. -/
def fnInput (host : Host) (source : Source) (spec : RouteSpec) : FnInput :=
  match ((readRequest spec.maxEventBytes).run source).1 with
  | .ok (some request) =>
    match fnRequest serde host request spec with
    | .error response => .failed 200 response
    | .ok normalized => .request normalized
  | .ok none => .closed
  | .err .tooLarge =>
    .failed 200 (errorResponse 413 (tooLargeBody spec) (generatedRequestId host))
  | .err (.badRequest error) =>
    .failed 200 (errorResponse 400 (errorBody error) (generatedRequestId host))
  | .err (.io _) =>
    .failed 502 (errorResponse 500 (errorBody "fn_request_read_failed") (generatedRequestId host))
  | .panic | .hang => .crashed

/-- What `handle_stream` answers: the outer status and the response. -/
def fnAnswer (host : Host) (source : Source) (spec : RouteSpec) : Option (Nat × FunctionResponse) :=
  match fnInput serde host source spec with
  | .closed | .crashed => none
  | .failed outerStatus response => some (outerStatus, response)
  | .request normalized => some (200, (dispatchRequest normalized spec).response)

/-- `handle_stream`: what is written to the socket. -/
def handleStream (host : Host) (source : Source) (spec : RouteSpec) : Option WireResponse :=
  (fnAnswer serde host source spec).map fun answer => writeFnResponse serde answer.1 answer.2

end

variable {serde : SerdeJson} {host : Host} {source : Source} {spec : RouteSpec}

/-! ## Headers -/

theorem firstHeader_eq_none {headers : BTreeMap Str Str} {names : List Str}
    (h : ∀ name ∈ names, headers.get name = none) : firstHeader headers names = none := by
  rw [firstHeader, List.findSome?_eq_none_iff]
  intro name hname
  rw [h name hname]
  rfl

/-- A value without white space is found as it is. -/
theorem firstHeader_eq_some {headers : BTreeMap Str Str} {name value : Str} {names : List Str}
    (hget : headers.get name = some value) (hne : value ≠ [])
    (hchars : ∀ c ∈ value, Str.isWhitespace c = false) :
    firstHeader headers (name :: names) = some value := by
  have htrim := Str.trim_eq_self hchars
  rw [firstHeader, List.findSome?_cons, hget, Option.bind_some, CloudEvent.nonBlank, htrim,
    if_neg hne]

/-! ## Identifiers -/

theorem valid_generatedRequestId (host : Host) : ValidRequestId (generatedRequestId host) :=
  Lambdas.RequestId.valid_generated (Str.forall_mem (by decide)) (by decide) host

theorem valid_fnRequestId (host : Host) (headers : BTreeMap Str Str) :
    ValidRequestId (fnRequestId host headers) := by
  rw [fnRequestId]
  cases h : (firstHeader headers requestIdHeaders).bind sanitizeRequestId with
  | none => exact valid_generatedRequestId host
  | some id =>
    obtain ⟨value, -, hid⟩ := Option.bind_eq_some_iff.mp h
    exact Lambdas.RequestId.valid_of_sanitize hid

theorem get_errorResponse (statusCode : Nat) (body : Json) (requestId : Str) :
    (errorResponse statusCode body requestId).headers.get "x-request-id" = some requestId := by
  rfl

/-- A request is dispatched under a valid identifier, and an answer carries one. -/
def FnInput.CarriesId : FnInput → Prop
  | .closed | .crashed => True
  | .failed _ response =>
    ∃ id, response.headers.get "x-request-id" = some id ∧ ValidRequestId id
  | .request normalized => ValidRequestId normalized.requestId

theorem carriesId_errorResponse (outerStatus statusCode : Nat) (body : Json) {id : Str}
    (hid : ValidRequestId id) :
    (FnInput.failed outerStatus (errorResponse statusCode body id)).CarriesId :=
  ⟨id, get_errorResponse statusCode body id, hid⟩

theorem carriesId_fnInput (serde : SerdeJson) (host : Host) (source : Source) (spec : RouteSpec) :
    (fnInput serde host source spec).CarriesId := by
  have hgenerated := valid_generatedRequestId host
  rw [fnInput]
  split
  · rename_i request _
    rw [fnRequest]
    have hid := valid_fnRequestId host request.headers
    cases decodePayload serde request.headers (contentType request.headers) request.body with
    | error error => exact carriesId_errorResponse _ _ _ hid
    | ok payload => exact hid
  · trivial
  · exact carriesId_errorResponse _ _ _ hgenerated
  · exact carriesId_errorResponse _ _ _ hgenerated
  · exact carriesId_errorResponse _ _ _ hgenerated
  · trivial
  · trivial

theorem valid_requestId {request : FunctionRequest}
    (h : fnInput serde host source spec = .request request) : ValidRequestId request.requestId := by
  have hcarries := carriesId_fnInput serde host source spec
  rw [h] at hcarries
  exact hcarries

theorem get_fnAnswer {outerStatus : Nat} {response : FunctionResponse}
    (h : fnAnswer serde host source spec = some (outerStatus, response)) :
    ∃ id, response.headers.get "x-request-id" = some id ∧ ValidRequestId id := by
  rw [fnAnswer] at h
  split at h
  · cases h
  · cases h
  · rename_i hinput
    obtain ⟨rfl, rfl⟩ := Prod.mk.inj (Option.some.inj h)
    have hcarries := carriesId_fnInput serde host source spec
    rw [hinput] at hcarries
    exact hcarries
  · rename_i hinput
    obtain ⟨rfl, rfl⟩ := Prod.mk.inj (Option.some.inj h)
    exact ⟨_, Lambdas.get_dispatchRequest _ _, valid_requestId hinput⟩

end OracleFn
