-- SUMMARY: The portable HTTP adapter: request decoding, correlation headers, and the response that is built.
import ApmeWebMash.Crates
import ApmeWebMash.Lambdas.CloudEvent
import ApmeWebMash.Lambdas.Dispatch

/-! # Portable HTTP

`http_handler` turns an HTTP request into a provider-neutral one. The body is an
event in one of the two CloudEvents modes, or plain JSON. -/

namespace Lambdas

/-- An HTTP request: `body` is `none` when its stream fails. -/
structure HttpRequest where
  method : Str
  path : Str
  headers : HeaderMap
  body : Option (List UInt8)

/-- An HTTP response. -/
structure HttpResponse where
  status : Nat
  headers : HeaderMap
  body : List UInt8
deriving DecidableEq

/-- `to_bytes`: the body, if it is at most `limit` bytes long. -/
def toBytes (body : Option (List UInt8)) (limit : Nat) : Option (List UInt8) :=
  body.filter (·.length ≤ limit)

section
variable (serde : SerdeJson) (http : HttpCrate)

/-- `first_header`. -/
def firstHeader (headers : HeaderMap) (names : List Str) : Option Str :=
  names.findSome? fun name => ((headers.get name).bind http.toStr).bind CloudEvent.nonBlank

/-- The content type of a request, in lower case. -/
def contentType (headers : HeaderMap) : Str :=
  Str.toAsciiLowercase (((headers.get "content-type").bind http.toStr).getD [])

/-- The check of `decode_http_payload` on a binary event. -/
def checkBinaryEvent (headers : HeaderMap) : Except Str Unit :=
  match firstHeader http headers ["ce-specversion"] with
  | none => .ok ()
  | some version =>
    CloudEvent.validate (some version) fun name =>
      (firstHeader http headers [("ce-" : Str) ++ name]).isSome

/-- `decode_http_payload`: the payload and the identifier of the event. -/
def decodeHttpPayload (headers : HeaderMap) (bytes : List UInt8) :
    Except Str (Json × Option Str) :=
  if Str.startsWith (contentType http headers) "application/cloudevents+json" then
    match serde.fromSlice bytes with
    | none => .error "invalid_cloud_event_json"
    | some envelope => do
      CloudEvent.validateEnvelope envelope
      .ok (CloudEvent.data envelope, (envelope.get "id").bind Json.asStr)
  else do
    checkBinaryEvent http headers
    if bytes = [] then .ok (.object [], firstHeader http headers ["ce-id"])
    else
      match serde.fromSlice bytes with
      | none => .error "invalid_json"
      | some v => .ok (v, firstHeader http headers ["ce-id"])

/-- The headers that `request_id_from_headers` looks at, in order. -/
def correlationHeaders : List Str :=
  ["x-request-id", "x-correlation-id", "x-ms-request-id", "x-cloud-trace-context", "traceparent",
    "x-openfaas-request-id"]

/-- `request_id_from_headers`. -/
def requestIdFromHeaders (headers : HeaderMap) : Option Str :=
  (firstHeader http headers correlationHeaders).bind sanitizeRequestId

/-- The identifier under which `http_handler` handles a request. -/
def httpRequestId (host : Host) (headers : HeaderMap) (cloudEventId : Option Str) : Str :=
  ((cloudEventId.bind sanitizeRequestId).or (requestIdFromHeaders http headers)).getD
    (generatedRequestId host)

/-- The part of `http_handler` before the dispatcher: the provider-neutral
    request, or the response to a request that is not dispatched. -/
def httpRequest (host : Host) (request : HttpRequest) (spec : RouteSpec) :
    Except FunctionResponse FunctionRequest :=
  match toBytes request.body (Numeral.saturatingAdd spec.maxEventBytes 1) with
  | none => .error (functionResponse 413 (tooLargeBody spec) none)
  | some body =>
    if body.length > spec.maxEventBytes then .error (functionResponse 413 (tooLargeBody spec) none)
    else
      match decodeHttpPayload serde http request.headers body with
      | .error error => .error (functionResponse 400 (errorBody error) none)
      | .ok (payload, cloudEventId) => .ok {
          method := request.method
          path := if request.path = "/" then spec.path else request.path
          body := payload
          requestId := httpRequestId http host request.headers cloudEventId
          eventBytes := body.length }

/-- `http_response`. -/
def httpResponse (response : FunctionResponse) : HttpResponse where
  status := if 100 ≤ response.statusCode ∧ response.statusCode < 1000 then response.statusCode else 500
  headers := response.headers.entries.filterMap fun header => do
    let name ← http.headerName header.1
    let value ← http.headerValue header.2
    some (name, value)
  body := (serde.toVec response.body).getD
    (Utf8.encode "\x7b\"error\":\"serialization_failed\"\x7d")

/-- What `http_handler` answers, before it becomes an HTTP response. -/
def httpAnswer (host : Host) (request : HttpRequest) (spec : RouteSpec) : FunctionResponse :=
  match httpRequest serde http host request spec with
  | .error response => response
  | .ok normalized => (dispatchRequest normalized spec).response

/-- `http_handler`. -/
def httpHandler (host : Host) (request : HttpRequest) (spec : RouteSpec) : HttpResponse :=
  httpResponse serde http (httpAnswer serde http host request spec)

end

variable {serde : SerdeJson} {http : HttpCrate} {host : Host} {request : HttpRequest}
  {spec : RouteSpec}

/-- Headers that say nothing about an event. -/
def Unrelated (headers : HeaderMap) : Prop :=
  ∀ e ∈ headers, e.1 ≠ "content-type" ∧ ¬ ("ce-" : Str) <+: e.1

theorem get_contentType_of_unrelated {headers : HeaderMap} (h : Unrelated headers) :
    headers.get "content-type" = none := by
  rw [Option.eq_none_iff_forall_ne_some]
  intro value hvalue
  exact (h _ (BTreeMap.mem_of_lookupEntries hvalue)).1 rfl

/-- A body within the limit reaches the decoder whole. -/
theorem httpRequest_eq {body : List UInt8} (hbody : request.body = some body)
    (hlen : body.length ≤ spec.maxEventBytes) :
    httpRequest serde http host request spec =
      match decodeHttpPayload serde http request.headers body with
      | .error error => .error (functionResponse 400 (errorBody error) none)
      | .ok (payload, cloudEventId) => .ok {
          method := request.method
          path := if request.path = "/" then spec.path else request.path
          body := payload
          requestId := httpRequestId http host request.headers cloudEventId
          eventBytes := body.length } := by
  have hlimit : body.length ≤ Numeral.saturatingAdd spec.maxEventBytes 1 := by
    have hmax := spec.maxEventBytes_le
    simp only [Numeral.saturatingAdd]
    omega
  have hbytes : toBytes request.body (Numeral.saturatingAdd spec.maxEventBytes 1) = some body := by
    simp [toBytes, hbody, Option.filter, hlimit]
  simp only [httpRequest, hbytes, if_neg (Nat.not_lt.mpr hlen)]

/-- The answer to a request that decodes depends on the body only through its
    payload. -/
theorem httpAnswer_of_decode {body : List UInt8} {payload : Json}
    {cloudEventId : Option Str} (hbody : request.body = some body)
    (hlen : body.length ≤ spec.maxEventBytes)
    (hdecode : decodeHttpPayload serde http request.headers body = .ok (payload, cloudEventId)) :
    httpAnswer serde http host request spec =
      let requestId := httpRequestId http host request.headers cloudEventId
      let path := if request.path = "/" then spec.path else request.path
      withRequestId ((routeVerdict spec request.method path payload).answer spec requestId)
        requestId := by
  rw [httpAnswer, httpRequest_eq hbody hlen, hdecode]
  dsimp only
  rw [dispatchRequest_response hlen]

theorem valid_httpRequestId (headers : HeaderMap) (cloudEventId : Option Str) :
    ValidRequestId (httpRequestId http host headers cloudEventId) := by
  rw [httpRequestId]
  cases hid : cloudEventId.bind sanitizeRequestId with
  | some id =>
    obtain ⟨value, -, hsanitize⟩ := Option.bind_eq_some_iff.mp hid
    exact RequestId.valid_of_sanitize hsanitize
  | none => exact valid_sanitizeRequestId_getD _ host

theorem valid_of_httpRequest {normalized : FunctionRequest}
    (h : httpRequest serde http host request spec = .ok normalized) :
    ValidRequestId normalized.requestId := by
  rw [httpRequest] at h
  split at h
  · cases h
  · split at h
    · cases h
    · split at h
      · cases h
      · rw [← Except.ok.inj h]
        exact valid_httpRequestId _ _

/-- A request that is not dispatched is answered like one that is, without an
    identifier. -/
theorem exists_functionResponse_of_httpRequest {response : FunctionResponse}
    (h : httpRequest serde http host request spec = .error response) :
    ∃ status body, response = functionResponse status body none := by
  rw [httpRequest] at h
  split at h
  · exact ⟨_, _, (Except.error.inj h).symm⟩
  · split at h
    · exact ⟨_, _, (Except.error.inj h).symm⟩
    · split at h
      · exact ⟨_, _, (Except.error.inj h).symm⟩
      · cases h

theorem get_of_httpRequest_error {response : FunctionResponse}
    (h : httpRequest serde http host request spec = .error response) :
    response.headers.get "x-request-id" = none := by
  obtain ⟨status, body, rfl⟩ := exists_functionResponse_of_httpRequest h
  rfl

end Lambdas
