-- SUMMARY: The AWS Lambda adapter: API Gateway envelopes in, API Gateway responses out.
import ApmeWebMash.Crates
import ApmeWebMash.Lambdas.Dispatch

/-! # AWS Lambda

`dispatch` takes the JSON envelope of an API Gateway event, in the format of
version 1 or 2, and the request identifier of the Lambda context. -/

namespace Lambdas

section
variable (serde : SerdeJson)

/-- `decode_json_value`. -/
def decodeJsonValue (body : Option Json) : Json :=
  match body with
  | some (.string text) => (serde.fromStr text).getD (.string text)
  | some v => v
  | none => .object []

/-- `aws_response`. -/
def awsResponse (response : FunctionResponse) : Json :=
  .object [
    ("body", .string
      ((serde.toString response.body).getD "\x7b\"error\":\"serialization_failed\"\x7d")),
    ("headers", .object (response.headers.entries.map fun header => (header.1, .string header.2))),
    ("isBase64Encoded", .bool false),
    ("statusCode", .number (Numeral.decimal response.statusCode))]

/-- `payload.pointer("/requestContext/http/method")`. -/
def requestContextMethod (payload : Json) : Option Json :=
  ((payload.get "requestContext").bind (·.get "http")).bind (·.get "method")

/-- The identifier under which `dispatch` handles an event. -/
def awsRequestId (host : Host) (requestId : Str) : Str :=
  (sanitizeRequestId requestId).getD (generatedRequestId host)

/-- The part of `dispatch` before the dispatcher: the provider-neutral request,
    or the response to a body in base64. -/
def awsRequest (host : Host) (payload : Json) (requestId : Str) :
    Except FunctionResponse FunctionRequest :=
  let requestId := awsRequestId host requestId
  if ((payload.get "isBase64Encoded").bind Json.asBool).getD false then
    .error (withRequestId (functionResponse 415 (errorBody "base64_body_not_supported") none)
      requestId)
  else .ok {
    method :=
      (((requestContextMethod payload).or (payload.get "httpMethod")).bind Json.asStr).getD []
    path := (((payload.get "rawPath").or (payload.get "path")).bind Json.asStr).getD []
    body := decodeJsonValue serde (payload.get "body")
    requestId := requestId
    eventBytes := (serde.toVec payload).elim Numeral.usizeMax List.length }

/-- What `dispatch` answers, before it is put into an envelope. -/
def awsAnswer (host : Host) (payload : Json) (requestId : Str) (spec : RouteSpec) :
    FunctionResponse :=
  match awsRequest serde host payload requestId with
  | .error response => response
  | .ok request => (dispatchRequest request spec).response

/-- `dispatch`. -/
def dispatch (host : Host) (payload : Json) (requestId : Str) (spec : RouteSpec) : Json :=
  awsResponse serde (awsAnswer serde host payload requestId spec)

end

variable {serde : SerdeJson} {host : Host} {payload : Json} {requestId : Str}

theorem awsRequest_requestId {request : FunctionRequest}
    (h : awsRequest serde host payload requestId = .ok request) :
    request.requestId = awsRequestId host requestId := by
  simp only [awsRequest] at h
  split at h
  · cases h
  · rw [← Except.ok.inj h]

/-- Every answer carries the identifier of the event. -/
theorem get_awsAnswer (serde : SerdeJson) (host : Host) (payload : Json) (requestId : Str)
    (spec : RouteSpec) :
    (awsAnswer serde host payload requestId spec).headers.get "x-request-id" =
      some (awsRequestId host requestId) := by
  rw [awsAnswer]
  cases hreq : awsRequest serde host payload requestId with
  | error response =>
    simp only [awsRequest] at hreq
    split at hreq
    · rw [← Except.error.inj hreq]
      exact get_withRequestId _ _
    · cases hreq
  | ok request =>
    dsimp only
    rw [get_dispatchRequest, awsRequest_requestId hreq]

theorem valid_awsRequestId (host : Host) (requestId : Str) :
    ValidRequestId (awsRequestId host requestId) :=
  valid_sanitizeRequestId_getD (some requestId) host

end Lambdas
