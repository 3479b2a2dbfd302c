-- SUMMARY: The provider-neutral dispatcher: its answer to a request, and the verdict that the answer depends on.
import ApmeWebMash.Base.BTreeMap
import ApmeWebMash.Base.Json
import ApmeWebMash.Lambdas.RequestId

/-! # Dispatch

`dispatch_request` checks the size, the path, the method and the required field
of a request, in this order, and answers accordingly. Every runtime adapter ends
here. -/

namespace Lambdas

/-- A route: the sizes are `usize`. -/
structure RouteSpec where
  handler : Str
  method : Str
  path : Str
  requiredField : Str
  maxEventBytes : Nat
  maxEventBytes_le : maxEventBytes ≤ Numeral.usizeMax

structure FunctionRequest where
  method : Str
  path : Str
  body : Json
  requestId : Str
  eventBytes : Nat

structure FunctionResponse where
  statusCode : Nat
  headers : BTreeMap Str Str
  body : Json
deriving DecidableEq

/-! ## Responses -/

/-- `function_response`. -/
def functionResponse (statusCode : Nat) (body : Json) (allow : Option Str) : FunctionResponse :=
  let headers : BTreeMap Str Str :=
    BTreeMap.ofList [("cache-control", "no-store"), ("content-type", "application/json")]
  match allow with
  | some method => ⟨statusCode, headers.insert "allow" method, body⟩
  | none => ⟨statusCode, headers, body⟩

/-- `with_request_id`. -/
def withRequestId (response : FunctionResponse) (requestId : Str) : FunctionResponse :=
  { response with headers := response.headers.insert "x-request-id" requestId }

/-- The document of an error with no further members. -/
def errorBody (error : Str) : Json := .object [("error", .string error)]

/-- The document of a size error. -/
def tooLargeBody (spec : RouteSpec) : Json :=
  .object [("error", .string "event_too_large"),
    ("max_bytes", .number (Numeral.decimal spec.maxEventBytes))]

@[simp] theorem withRequestId_body (response : FunctionResponse) (requestId : Str) :
    (withRequestId response requestId).body = response.body := rfl

@[simp] theorem get_withRequestId (response : FunctionResponse) (requestId : Str) :
    (withRequestId response requestId).headers.get "x-request-id" = some requestId := by
  simp [withRequestId]

@[simp] theorem functionResponse_statusCode (statusCode : Nat) (body : Json) (allow : Option Str) :
    (functionResponse statusCode body allow).statusCode = statusCode := by
  cases allow <;> rfl

@[simp] theorem functionResponse_body (statusCode : Nat) (body : Json) (allow : Option Str) :
    (functionResponse statusCode body allow).body = body := by
  cases allow <;> rfl

/-! ## Bodies -/

/-- `has_required_value`. -/
def hasRequiredValue (body : Json) (field : Str) : Bool :=
  match body.get field with
  | none => false
  | some .null => false
  | some (.string text) => Str.trim text ≠ []
  | some (.array items) => !items.isEmpty
  | some (.object members) => !members.isEmpty
  | some (.bool _) => true
  | some (.number _) => true

/-! ## The dispatcher -/

/-- The line that the portable `emit_accept_log` prints, without its end. -/
def acceptLogLine (request : FunctionRequest) (spec : RouteSpec) : Str :=
  "\x7b\"level\":\"info\",\"event\":\"accepted_heavy_route\",\"handler\":\"" ++ spec.handler ++
    "\",\"route\":\"" ++ spec.path ++ "\",\"method\":\"" ++ spec.method ++
    "\",\"request_id\":\"" ++ request.requestId ++
    "\",\"event_bytes\":" ++ Numeral.decimal request.eventBytes ++ "\x7d"

/-- The body of the answer to an accepted request. -/
def acceptedBody (spec : RouteSpec) (requestId : Str) : Json :=
  .object [("accepted", .bool true), ("handler", .string spec.handler),
    ("request_id", .string requestId), ("route", .string spec.path)]

/-- What `dispatch_request` does: its response and the lines it logs. -/
structure Dispatched where
  response : FunctionResponse
  log : List Str

/-- `dispatch_request`. -/
def dispatchRequest (request : FunctionRequest) (spec : RouteSpec) : Dispatched :=
  let (response, log) :=
    if request.eventBytes > spec.maxEventBytes then
      (functionResponse 413 (tooLargeBody spec) none, [])
    else if request.path ≠ spec.path then
      (functionResponse 404 (errorBody "route_not_found") none, [])
    else if !Str.eqIgnoreAsciiCase request.method spec.method then
      (functionResponse 405 (errorBody "method_not_allowed") (some spec.method), [])
    else if !hasRequiredValue request.body spec.requiredField then
      (functionResponse 422
        (.object [("error", .string "missing_required_field"), ("field", .string spec.requiredField)])
        none, [])
    else
      (functionResponse 202 (acceptedBody spec request.requestId) none,
        [acceptLogLine request spec])
  ⟨withRequestId response request.requestId, log⟩

/-! ## Verdicts -/

/-- The possible outcomes of the checks. -/
inductive Verdict where
  | tooLarge
  | notFound
  | methodNotAllowed
  | missingField
  | accepted
deriving DecidableEq

/-- The outcome for a request within the size limit. -/
def routeVerdict (spec : RouteSpec) (method path : Str) (body : Json) : Verdict :=
  if path ≠ spec.path then .notFound
  else if !Str.eqIgnoreAsciiCase method spec.method then .methodNotAllowed
  else if !hasRequiredValue body spec.requiredField then .missingField
  else .accepted

/-- The outcome for a request. -/
def verdict (request : FunctionRequest) (spec : RouteSpec) : Verdict :=
  if request.eventBytes > spec.maxEventBytes then .tooLarge
  else routeVerdict spec request.method request.path request.body

/-- The answer to each outcome. -/
def Verdict.answer (spec : RouteSpec) (requestId : Str) : Verdict → FunctionResponse
  | .tooLarge => functionResponse 413 (tooLargeBody spec) none
  | .notFound => functionResponse 404 (errorBody "route_not_found") none
  | .methodNotAllowed => functionResponse 405 (errorBody "method_not_allowed") (some spec.method)
  | .missingField =>
    functionResponse 422
      (.object [("error", .string "missing_required_field"), ("field", .string spec.requiredField)])
      none
  | .accepted => functionResponse 202 (acceptedBody spec requestId) none

/-- The response is the answer to the verdict, and only an accepted request is
    logged. -/
theorem dispatchRequest_eq (request : FunctionRequest) (spec : RouteSpec) :
    dispatchRequest request spec =
      ⟨withRequestId ((verdict request spec).answer spec request.requestId) request.requestId,
        if verdict request spec = .accepted then [acceptLogLine request spec] else []⟩ := by
  simp only [dispatchRequest, verdict, routeVerdict]
  by_cases hsize : request.eventBytes > spec.maxEventBytes
  · simp [hsize, Verdict.answer]
  · by_cases hpath : request.path = spec.path
    · by_cases hmethod : Str.eqIgnoreAsciiCase request.method spec.method
      · by_cases hfield : hasRequiredValue request.body spec.requiredField <;>
          simp [hsize, hpath, hmethod, hfield, Verdict.answer]
      · simp [hsize, hpath, hmethod, Verdict.answer]
    · simp [hsize, hpath, Verdict.answer]

/-- Within the limit the exact size does not matter. -/
theorem dispatchRequest_response {request : FunctionRequest} {spec : RouteSpec}
    (h : request.eventBytes ≤ spec.maxEventBytes) :
    (dispatchRequest request spec).response =
      withRequestId ((routeVerdict spec request.method request.path request.body).answer spec
        request.requestId) request.requestId := by
  rw [dispatchRequest_eq, verdict, if_neg (Nat.not_lt.mpr h)]

theorem Verdict.exists_functionResponse (spec : RouteSpec) (requestId : Str) (verdict : Verdict) :
    ∃ status body allow, verdict.answer spec requestId = functionResponse status body allow := by
  cases verdict <;> (rw [answer]; exact ⟨_, _, _, rfl⟩)

/-- Every response carries the identifier of its request. -/
theorem get_dispatchRequest (request : FunctionRequest) (spec : RouteSpec) :
    (dispatchRequest request spec).response.headers.get "x-request-id" = some request.requestId :=
  get_withRequestId _ _

/-- Every answer has a status that HTTP can carry. -/
theorem Verdict.statusCode_bounds (spec : RouteSpec) (requestId : Str) (verdict : Verdict) :
    100 ≤ (verdict.answer spec requestId).statusCode ∧
      (verdict.answer spec requestId).statusCode < 1000 := by
  cases verdict <;> simp [answer]

/-- Only the answer to an accepted request mentions its identifier. -/
theorem Verdict.answer_eq_of_ne {spec : RouteSpec} {verdict : Verdict} (h : verdict ≠ .accepted)
    (requestId requestId' : Str) :
    verdict.answer spec requestId = verdict.answer spec requestId' := by
  cases verdict with
  | accepted => exact absurd rfl h
  | _ => rfl

theorem routeVerdict_eq_accepted {spec : RouteSpec} {method path : Str} {body : Json} :
    routeVerdict spec method path body = .accepted ↔
      path = spec.path ∧ Str.eqIgnoreAsciiCase method spec.method ∧
        hasRequiredValue body spec.requiredField := by
  rw [routeVerdict]
  by_cases hpath : path = spec.path
  · cases hmethod : Str.eqIgnoreAsciiCase method spec.method <;>
      cases hfield : hasRequiredValue body spec.requiredField <;> simp [hpath]
  · simp [hpath]

end Lambdas
