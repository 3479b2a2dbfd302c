-- SUMMARY: One plain request in the four forms that the runtimes deliver, and that every adapter gives it the same answer.
import ApmeWebMash.Lambdas.Aws
import ApmeWebMash.Lambdas.PortableHttp
import ApmeWebMash.OracleFn.Adapter
import ApmeWebMash.OracleFn.Encoding

/-! # Agreement of the adapters

A request without any sign of CloudEvents reaches the dispatcher as an API
Gateway event of version 1 or 2, as a portable HTTP request, or on the Fn
socket. Each adapter takes it apart in its own way, and renders the answer in
its own way. What is compared is what a client gets to see: the logical status
and the body. -/

namespace Adapters

open Lambdas (FunctionResponse Host HttpRequest HttpResponse RouteSpec Verdict decodeJsonValue
  functionResponse hasRequiredValue requestContextMethod routeVerdict withRequestId)
open OracleFn (Message WireResponse foldedValue valuesOf)

/-! ## The request -/

/-- A request as its client means it: a method, an absolute path, and a text. -/
structure PlainRequest where
  method : Str
  path : Str
  text : Str
  method_token : OracleFn.IsToken method
  path_absolute : Str.startsWith path "/"
  path_ne_root : path ≠ "/"
  path_chars : ∀ c ∈ path, c ≠ '?' ∧ c ≠ '#' ∧ Str.isWhitespace c = false
  path_no_scheme : ¬ ("://" : Str) <:+: path

namespace PlainRequest

variable (request : PlainRequest)

/-- The envelope that API Gateway makes of it in format 1. -/
structure IsV1 (payload : Json) : Prop where
  method : payload.get "httpMethod" = some (.string request.method)
  path : payload.get "path" = some (.string request.path)
  body : payload.get "body" = some (.string request.text)
  no_context_method : requestContextMethod payload = none
  no_raw_path : payload.get "rawPath" = none
  not_base64 : payload.get "isBase64Encoded" ≠ some (.bool true)

/-- The envelope that API Gateway makes of it in format 2. -/
structure IsV2 (payload : Json) : Prop where
  method : requestContextMethod payload = some (.string request.method)
  path : payload.get "rawPath" = some (.string request.path)
  body : payload.get "body" = some (.string request.text)
  not_base64 : payload.get "isBase64Encoded" ≠ some (.bool true)

/-- The same request over HTTP. -/
structure IsHttp (http : HttpRequest) : Prop where
  method : http.method = request.method
  path : http.path = request.path
  headers : Lambdas.Unrelated http.headers
  body : http.body = some (Utf8.encode request.text)

/-- The same request on the Fn socket. -/
structure IsFn (message : Message) : Prop where
  method : valuesOf "fn-http-method" message.fields = [request.method]
  path : valuesOf "fn-http-request-url" message.fields = [request.path]
  no_content_type : ∀ field ∈ message.fields,
    field.key ≠ "content-type" ∧ field.key ≠ "fn-http-h-content-type"
  no_event : ∀ field ∈ message.fields,
    ¬ ("ce-" : Str) <+: field.key ∧ ¬ ("fn-http-h-ce-" : Str) <+: field.key
  body : message.framing.body = Utf8.encode request.text

end PlainRequest

/-- One request in its four forms, each within the limit of its adapter. -/
structure Deliveries (serde : SerdeJson) (spec : RouteSpec) where
  request : PlainRequest
  v1 : Json
  v2 : Json
  http : HttpRequest
  fn : Message
  is_v1 : request.IsV1 v1
  is_v2 : request.IsV2 v2
  is_http : request.IsHttp http
  is_fn : request.IsFn fn
  text_le : (Utf8.encode request.text).length ≤ spec.maxEventBytes
  v1_le : ∃ bytes, serde.toVec v1 = some bytes ∧ bytes.length ≤ spec.maxEventBytes
  v2_le : ∃ bytes, serde.toVec v2 = some bytes ∧ bytes.length ≤ spec.maxEventBytes

/-! ## What a client sees -/

/-- The logical status, as a numeral, and the bytes of the body. -/
structure Logical where
  status : Str
  body : List UInt8
deriving DecidableEq

/-- Read from the envelope that API Gateway gets back. -/
def awsLogical (response : Json) : Option Logical :=
  match response.get "statusCode", response.get "body" with
  | some (.number status), some (.string text) => some ⟨status, Utf8.encode text⟩
  | _, _ => none

/-- Read from an HTTP response. -/
def httpLogical (response : HttpResponse) : Option Logical :=
  some ⟨Numeral.decimal response.status, response.body⟩

/-- Read from a response on the Fn socket, where a header has the status. -/
def fnLogical (response : WireResponse) : Option Logical :=
  (BTreeMap.lookupEntries ("fn-http-status" : Str) response.headers).map fun status =>
    ⟨status, response.body⟩

/-- The answers to the four deliveries. Each adapter runs on a host of its own,
    and the bytes on the socket may go on behind the message. -/
def Deliveries.answers {serde : SerdeJson} {spec : RouteSpec} (deliveries : Deliveries serde spec)
    (http : HttpCrate) (host : Fin 4 → Host) (contextId : Fin 2 → Str) (rest : List UInt8)
    (fault : Option Str) : List (Option Logical) := [
  awsLogical (Lambdas.dispatch serde (host 0) deliveries.v1 (contextId 0) spec),
  awsLogical (Lambdas.dispatch serde (host 1) deliveries.v2 (contextId 1) spec),
  httpLogical (Lambdas.httpHandler serde http (host 2) deliveries.http spec),
  (OracleFn.handleStream serde (host 3) ⟨deliveries.fn.bytes ++ rest, fault⟩ spec).bind fnLogical]

section
variable (serde : SerdeJson)

/-- What a client sees of a response, however it is rendered. -/
def logicalOf (response : FunctionResponse) : Logical where
  status := Numeral.decimal response.statusCode
  body := (serde.toVec response.body).getD
    (Utf8.encode "\x7b\"error\":\"serialization_failed\"\x7d")

/-- What a client sees of the answer to an accepted request. -/
def acceptedLogical (spec : RouteSpec) (requestId : Str) : Logical :=
  logicalOf serde (functionResponse 202 (Lambdas.acceptedBody spec requestId) none)

end

variable {serde : SerdeJson} {http : HttpCrate} {host : Host} {spec : RouteSpec}
  {request : PlainRequest}

/-! ## Rendering -/

theorem logicalOf_errorResponse (statusCode : Nat) (body : Json) (requestId : Str) :
    logicalOf serde (OracleFn.errorResponse statusCode body requestId) =
      logicalOf serde (functionResponse statusCode body none) := by
  simp only [logicalOf, OracleFn.errorResponse, Lambdas.functionResponse_statusCode,
    Lambdas.functionResponse_body]

@[simp] theorem logicalOf_withRequestId (response : FunctionResponse) (requestId : Str) :
    logicalOf serde (withRequestId response requestId) = logicalOf serde response := rfl

theorem awsLogical_awsResponse (hrender : serde.RendersAlike) (response : FunctionResponse) :
    awsLogical (Lambdas.awsResponse serde response) = some (logicalOf serde response) := by
  have hstatus : (Lambdas.awsResponse serde response).get "statusCode" =
      some (.number (Numeral.decimal response.statusCode)) := rfl
  have hbody : (Lambdas.awsResponse serde response).get "body" =
      some (.string ((serde.toString response.body).getD
        "\x7b\"error\":\"serialization_failed\"\x7d")) := rfl
  rw [awsLogical, hstatus, hbody, logicalOf, hrender]
  cases serde.toString response.body <;> rfl

theorem httpLogical_httpResponse {response : FunctionResponse}
    (h : 100 ≤ response.statusCode ∧ response.statusCode < 1000) :
    httpLogical (Lambdas.httpResponse serde http response) = some (logicalOf serde response) := by
  rw [httpLogical, Lambdas.httpResponse, if_pos h, logicalOf]

theorem fnLogical_writeFnResponse (outerStatus : Nat) (response : FunctionResponse) :
    fnLogical (OracleFn.writeFnResponse serde outerStatus response) =
      some (logicalOf serde response) := by
  have hmem := OracleFn.status_mem_writeFnResponse serde outerStatus response
  have hget : BTreeMap.lookupEntries ("fn-http-status" : Str)
      (OracleFn.writeFnResponse serde outerStatus response).headers =
        some (Numeral.decimal response.statusCode) :=
    BTreeMap.get_eq_some_iff (m := ⟨_, (OracleFn.fnHeaders response).sorted.filter _⟩) |>.mpr hmem
  rw [fnLogical, hget]
  rfl

/-! ## AWS -/

theorem awsLogical_dispatch (hrender : serde.RendersAlike) (host : Host) (contextId : Str)
    (request : PlainRequest) {payload : Json}
    (hmethod : (requestContextMethod payload).or (payload.get "httpMethod") =
      some (.string request.method))
    (hpath : (payload.get "rawPath").or (payload.get "path") = some (.string request.path))
    (hbody : payload.get "body" = some (.string request.text))
    (hbase64 : payload.get "isBase64Encoded" ≠ some (.bool true))
    (hlen : ∃ bytes, serde.toVec payload = some bytes ∧ bytes.length ≤ spec.maxEventBytes) :
    awsLogical (Lambdas.dispatch serde host payload contextId spec) =
      some (logicalOf serde ((routeVerdict spec request.method request.path
        ((serde.fromStr request.text).getD (.string request.text))).answer spec
          (Lambdas.awsRequestId host contextId))) := by
  obtain ⟨bytes, hbytes, hlen⟩ := hlen
  -- the body of the event is taken as text
  have hplain : ((payload.get "isBase64Encoded").bind Json.asBool).getD false = false := by
    cases hget : payload.get "isBase64Encoded" with
    | none => rfl
    | some v =>
      cases v with
      | bool b =>
        cases b with
        | false => rfl
        | true => exact absurd hget hbase64
      | _ => rfl
  rw [Lambdas.dispatch, awsLogical_awsResponse hrender, Lambdas.awsAnswer, Lambdas.awsRequest]
  simp only [hplain, Bool.false_eq_true, ↓reduceIte]
  rw [Lambdas.dispatchRequest_response, logicalOf_withRequestId, hmethod, hpath, hbody]
  · rfl
  · rw [hbytes]
    exact hlen

/-! ## Portable HTTP -/

/-- What the portable adapter and the Fn adapter make of a plain body. -/
def textPayload (serde : SerdeJson) (text : Str) : Option Json :=
  if text = [] then some (.object []) else serde.fromSlice (Utf8.encode text)

/-- What a client sees of a request with a plain body. -/
def textLogical (serde : SerdeJson) (spec : RouteSpec) (request : PlainRequest) (requestId : Str) :
    Logical :=
  match textPayload serde request.text with
  | none => logicalOf serde (functionResponse 400 (Lambdas.errorBody "invalid_json") none)
  | some payload =>
    logicalOf serde ((routeVerdict spec request.method request.path payload).answer spec requestId)

theorem decodeHttpPayload_plain (serde : SerdeJson) (http : HttpCrate) {headers : HeaderMap}
    (h : Lambdas.Unrelated headers) (text : Str) :
    ∃ cloudEventId, Lambdas.decodeHttpPayload serde http headers (Utf8.encode text) =
      (textPayload serde text).elim (.error "invalid_json") fun v => .ok (v, cloudEventId) := by
  have hcontent : Lambdas.contentType http headers = [] := by
    rw [Lambdas.contentType, Lambdas.get_contentType_of_unrelated h]
    rfl
  have hplain : ¬ Str.startsWith [] "application/cloudevents+json" := by decide +kernel
  -- no attribute of an event
  have hcheck : Lambdas.checkBinaryEvent http headers = .ok () := by
    have hversion : headers.get "ce-specversion" = none := by
      rw [Option.eq_none_iff_forall_ne_some]
      intro value hvalue
      have hprefix : ("ce-" : Str) <+: "ce-specversion" := by decide
      exact (h _ (BTreeMap.mem_of_lookupEntries hvalue)).2 hprefix
    rw [Lambdas.checkBinaryEvent, Lambdas.firstHeader, List.findSome?_cons, hversion]
    rfl
  refine ⟨Lambdas.firstHeader http headers ["ce-id"], ?_⟩
  rw [Lambdas.decodeHttpPayload, hcontent, if_neg hplain, hcheck, textPayload]
  by_cases htext : text = []
  · subst htext
    rfl
  · have hne : Utf8.encode text ≠ [] := fun hnil => htext (Utf8.encode_eq_nil_iff.mp hnil)
    rw [if_neg htext]
    change (if Utf8.encode text = [] then _ else _) = _
    rw [if_neg hne]
    cases serde.fromSlice (Utf8.encode text) <;> rfl

theorem httpLogical_httpHandler (serde : SerdeJson) (http : HttpCrate) (host : Host)
    {delivery : HttpRequest} (h : request.IsHttp delivery)
    (hlen : (Utf8.encode request.text).length ≤ spec.maxEventBytes) :
    ∃ requestId, httpLogical (Lambdas.httpHandler serde http host delivery spec) =
      some (textLogical serde spec request requestId) := by
  obtain ⟨cloudEventId, hdecode⟩ :=
    decodeHttpPayload_plain serde http h.headers request.text
  unfold textLogical
  cases hpayload : textPayload serde request.text with
  | none =>
    rw [hpayload, Option.elim_none] at hdecode
    rw [Lambdas.httpHandler, Lambdas.httpAnswer, Lambdas.httpRequest_eq h.body hlen, hdecode]
    exact ⟨[], httpLogical_httpResponse (by simp)⟩
  | some payload =>
    rw [hpayload, Option.elim_some] at hdecode
    have hroot : delivery.path ≠ "/" := h.path ▸ request.path_ne_root
    rw [Lambdas.httpHandler, Lambdas.httpAnswer_of_decode h.body hlen hdecode]
    dsimp only
    rw [if_neg hroot, h.method, h.path]
    refine ⟨Lambdas.httpRequestId http host delivery.headers cloudEventId, ?_⟩
    rw [httpLogical_httpResponse, logicalOf_withRequestId]
    exact Verdict.statusCode_bounds _ _ _

/-! ## Oracle/Fn -/

/-- The headers that the reader makes of a message. -/
def headersOf (message : Message) : BTreeMap Str Str :=
  message.fields.foldl OracleFn.addField BTreeMap.empty

theorem get_headersOf_eq_none {message : Message} {name : Str}
    (h : ∀ field ∈ message.fields, field.key ≠ name) : (headersOf message).get name = none := by
  rw [headersOf, OracleFn.get_fields, OracleFn.foldedValue_eq_none h]

theorem get_headersOf_eq_some {message : Message} {name value : Str}
    (h : valuesOf name message.fields = [value]) : (headersOf message).get name = some value := by
  rw [headersOf, OracleFn.get_fields, foldedValue, h]
  simp [List.intercalate]

theorem decodePayload_plain {message : Message} (h : request.IsFn message) :
    OracleFn.decodePayload serde (headersOf message) (OracleFn.contentType (headersOf message))
        message.framing.body =
      (textPayload serde request.text).elim (.error "invalid_json") .ok := by
  have hcontent : OracleFn.contentType (headersOf message) = [] := by
    rw [OracleFn.contentType, OracleFn.firstHeader_eq_none]
    · rfl
    · simp only [List.forall_mem_cons]
      exact ⟨get_headersOf_eq_none fun field hfield => (h.no_content_type field hfield).1,
        get_headersOf_eq_none fun field hfield => (h.no_content_type field hfield).2, by simp⟩
  have hplain : ¬ Str.startsWith [] "application/cloudevents+json" := by decide +kernel
  -- no attribute of an event, so nothing is demanded of any
  have hcheck : OracleFn.checkBinaryEvent (headersOf message) = .ok () := by
    have hversion : OracleFn.firstHeader (headersOf message)
        ["ce-specversion", "fn-http-h-ce-specversion"] = none := by
      refine OracleFn.firstHeader_eq_none ?_
      have hce : ("ce-" : Str) <+: "ce-specversion" := by decide
      have hfn : ("fn-http-h-ce-" : Str) <+: "fn-http-h-ce-specversion" := by decide
      simp only [List.forall_mem_cons]
      exact ⟨get_headersOf_eq_none fun field hfield hkey => (h.no_event field hfield).1 (hkey ▸ hce),
        get_headersOf_eq_none fun field hfield hkey => (h.no_event field hfield).2 (hkey ▸ hfn),
        by simp⟩
    rw [OracleFn.checkBinaryEvent, hversion]
  rw [OracleFn.decodePayload, hcontent, hcheck, h.body, textPayload]
  by_cases htext : request.text = []
  · rw [if_pos htext, htext]
    rfl
  · have hne : Utf8.encode request.text ≠ [] := fun hnil => htext (Utf8.encode_eq_nil_iff.mp hnil)
    rw [if_neg htext, if_neg hne]
    cases serde.fromSlice (Utf8.encode request.text) with
    | none => rfl
    | some v =>
      dsimp only
      rw [if_neg hplain]
      rfl

theorem fnRequest_plain {message : Message} (h : request.IsFn message) :
    OracleFn.fnRequest serde host ⟨headersOf message, message.framing.body⟩ spec =
      (textPayload serde request.text).elim
        (.error (OracleFn.errorResponse 400 (Lambdas.errorBody "invalid_json")
          (OracleFn.fnRequestId host (headersOf message))))
        fun payload => .ok {
          method := request.method
          path := request.path
          body := payload
          requestId := OracleFn.fnRequestId host (headersOf message)
          eventBytes := message.framing.body.length } := by
  have hmethod : OracleFn.firstHeader (headersOf message) ["fn-http-method"] =
      some request.method :=
    OracleFn.firstHeader_eq_some (get_headersOf_eq_some h.method) request.method_token.1
      request.method_token.2
  -- a plain path is no absolute URL, so it stays as it is
  have hpath : OracleFn.firstHeader (headersOf message) ["fn-http-request-url"] =
      some request.path := by
    refine OracleFn.firstHeader_eq_some (get_headersOf_eq_some h.path) ?_
      fun c hc => (request.path_chars c hc).2.2
    intro hnil
    have habsolute := request.path_absolute
    rw [hnil] at habsolute
    exact absurd habsolute (by decide)
  rw [OracleFn.fnRequest, decodePayload_plain h, hmethod, hpath, Option.map_some,
    OracleFn.requestPath_eq_self request.path_absolute request.path_chars request.path_no_scheme]
  cases textPayload serde request.text <;> rfl

theorem fnLogical_handleStream (serde : SerdeJson) (host : Host) {message : Message}
    (h : request.IsFn message)
    (hlen : (Utf8.encode request.text).length ≤ spec.maxEventBytes) (rest : List UInt8)
    (fault : Option Str) :
    ∃ requestId, (OracleFn.handleStream serde host ⟨message.bytes ++ rest, fault⟩ spec).bind
      fnLogical = some (textLogical serde spec request requestId) := by
  have hbody : message.framing.body.length ≤ spec.maxEventBytes := h.body ▸ hlen
  have hread := OracleFn.run_readRequest_bytes message spec.maxEventBytes_le hbody rest fault
  rw [← headersOf] at hread
  refine ⟨OracleFn.fnRequestId host (headersOf message), ?_⟩
  rw [OracleFn.handleStream, OracleFn.fnAnswer, OracleFn.fnInput, hread]
  dsimp only
  rw [fnRequest_plain h]
  unfold textLogical
  cases textPayload serde request.text with
  | none =>
    dsimp only [Option.elim_none]
    rw [Option.map_some, Option.bind_some, fnLogical_writeFnResponse, logicalOf_errorResponse]
  | some payload =>
    dsimp only [Option.elim_some]
    rw [Lambdas.dispatchRequest_response hbody, Option.map_some, Option.bind_some,
      fnLogical_writeFnResponse, logicalOf_withRequestId]

/-! ## Agreement -/

/-- The status 202 is given to nothing but an accepted request. -/
theorem status_answer (requestId : Str) (verdict : Verdict) :
    (logicalOf serde (verdict.answer spec requestId)).status = "202" ↔ verdict = .accepted := by
  cases verdict <;>
    simp only [logicalOf, Verdict.answer, Lambdas.functionResponse_statusCode] <;> decide

/-- An event whose body has no such member is not accepted. -/
theorem status_answer_ne {body : Json} (h : hasRequiredValue body spec.requiredField = false)
    (requestId : Str) :
    (logicalOf serde ((routeVerdict spec request.method request.path body).answer spec
      requestId)).status ≠ "202" := by
  rw [ne_eq, status_answer, Lambdas.routeVerdict_eq_accepted, h]
  simp

/-- A text that is not JSON is not accepted. -/
theorem status_textLogical_ne (hnone : serde.fromSlice (Utf8.encode request.text) = none)
    (requestId : Str) : (textLogical serde spec request requestId).status ≠ "202" := by
  unfold textLogical textPayload
  by_cases htext : request.text = []
  · rw [if_pos htext]
    exact status_answer_ne rfl requestId
  · rw [if_neg htext, hnone]
    simp only [logicalOf, Lambdas.functionResponse_statusCode]
    decide

/-- A text that is JSON is not empty, so it is taken for what it says. -/
theorem textLogical_of_parse (hempty : serde.RejectsEmpty) {v : Json}
    (h : serde.fromSlice (Utf8.encode request.text) = some v) (requestId : Str) :
    textLogical serde spec request requestId =
      logicalOf serde ((routeVerdict spec request.method request.path v).answer spec requestId) := by
  have htext : request.text ≠ [] := by
    intro hnil
    rw [hnil, Utf8.encode_nil, hempty] at h
    cases h
  unfold textLogical textPayload
  rw [if_neg htext, h]

/-- All answers accept the request, or none does. -/
def SameAcceptance (answers : List (Option Logical)) : Prop :=
  (∀ answer ∈ answers, ∃ logical, answer = some logical ∧ logical.status = "202") ∨
    ∀ answer ∈ answers, ∃ logical, answer = some logical ∧ logical.status ≠ "202"

/-- All answers are the same, or all are the answer to an accepted request, each
    with an identifier of its own. -/
def SameAnswer (serde : SerdeJson) (spec : RouteSpec) (answers : List (Option Logical)) : Prop :=
  (∃ logical, ∀ answer ∈ answers, answer = some logical) ∨
    ∀ answer ∈ answers, ∃ requestId, answer = some (acceptedLogical serde spec requestId)

/-- Answers by one verdict are the same up to the identifier. -/
theorem sameAnswer_of_verdict {verdict : Verdict} {answers : List (Option Logical)}
    (h : ∀ answer ∈ answers, ∃ requestId,
      answer = some (logicalOf serde (verdict.answer spec requestId))) :
    SameAnswer serde spec answers := by
  by_cases hverdict : verdict = .accepted
  · subst hverdict
    exact .inr h
  · refine .inl ⟨logicalOf serde (verdict.answer spec []), fun answer hanswer => ?_⟩
    obtain ⟨requestId, rfl⟩ := h answer hanswer
    rw [Verdict.answer_eq_of_ne hverdict requestId []]

theorem sameAcceptance_of_verdict {verdict : Verdict} {answers : List (Option Logical)}
    (h : ∀ answer ∈ answers, ∃ requestId,
      answer = some (logicalOf serde (verdict.answer spec requestId))) :
    SameAcceptance answers := by
  by_cases hverdict : verdict = .accepted
  · refine .inl fun answer hanswer => ?_
    obtain ⟨requestId, rfl⟩ := h answer hanswer
    exact ⟨_, rfl, (status_answer requestId verdict).mpr hverdict⟩
  · refine .inr fun answer hanswer => ?_
    obtain ⟨requestId, rfl⟩ := h answer hanswer
    exact ⟨_, rfl, fun hstatus => hverdict ((status_answer requestId verdict).mp hstatus)⟩

section
variable (deliveries : Deliveries serde spec) (host : Fin 4 → Host) (contextId : Fin 2 → Str)
  (rest : List UInt8) (fault : Option Str)

/-- The AWS answers go by the text as JSON, or as a string; the others by the
    payload of the text. -/
theorem forall_mem_answers (hrender : serde.RendersAlike) {P : Option Logical → Prop}
    (haws : ∀ requestId, P (some (logicalOf serde ((routeVerdict spec deliveries.request.method
      deliveries.request.path ((serde.fromStr deliveries.request.text).getD
        (.string deliveries.request.text))).answer spec requestId))))
    (htext : ∀ requestId, P (some (textLogical serde spec deliveries.request requestId))) :
    ∀ answer ∈ deliveries.answers http host contextId rest fault, P answer := by
  have hv1 := awsLogical_dispatch hrender (host 0) (contextId 0) deliveries.request
    (by rw [deliveries.is_v1.no_context_method, deliveries.is_v1.method]; rfl)
    (by rw [deliveries.is_v1.no_raw_path, deliveries.is_v1.path]; rfl)
    deliveries.is_v1.body deliveries.is_v1.not_base64 deliveries.v1_le
  have hv2 := awsLogical_dispatch hrender (host 1) (contextId 1) deliveries.request
    (by rw [deliveries.is_v2.method]; rfl) (by rw [deliveries.is_v2.path]; rfl)
    deliveries.is_v2.body deliveries.is_v2.not_base64 deliveries.v2_le
  obtain ⟨httpId, hhttp⟩ := httpLogical_httpHandler serde http (host 2) deliveries.is_http
    deliveries.text_le
  obtain ⟨fnId, hfn⟩ := fnLogical_handleStream serde (host 3) deliveries.is_fn
    deliveries.text_le rest fault
  rw [Deliveries.answers, hv1, hv2, hhttp, hfn]
  simp only [List.forall_mem_cons]
  exact ⟨haws _, haws _, htext _, htext _, by simp⟩

/-- The adapters agree on a plain request: all four accept it or none does, and
    when its text is JSON they give the same answer, up to the identifier. -/
theorem adapters_agree (hstr : serde.StrAgrees) (hempty : serde.RejectsEmpty)
    (hrender : serde.RendersAlike) :
    SameAcceptance (deliveries.answers http host contextId rest fault) ∧
      ((serde.fromStr deliveries.request.text).isSome →
        SameAnswer serde spec (deliveries.answers http host contextId rest fault)) := by
  have hslice := hstr deliveries.request.text
  cases hparse : serde.fromStr deliveries.request.text with
  | none =>
    refine ⟨.inr ?_, fun hsome => by cases hsome⟩
    refine forall_mem_answers deliveries host contextId rest fault hrender
      (fun requestId => ⟨_, rfl, ?_⟩) fun requestId => ⟨_, rfl, ?_⟩
    · rw [hparse]
      exact status_answer_ne rfl requestId
    · exact status_textLogical_ne (hslice ▸ hparse) requestId
  | some v =>
    have hverdict : ∀ answer ∈ deliveries.answers http host contextId rest fault, ∃ requestId,
        answer = some (logicalOf serde ((routeVerdict spec deliveries.request.method
          deliveries.request.path v).answer spec requestId)) := by
      refine forall_mem_answers deliveries host contextId rest fault hrender
        (fun requestId => ⟨requestId, ?_⟩) fun requestId => ⟨requestId, ?_⟩
      · rw [hparse, Option.getD_some]
      · rw [textLogical_of_parse hempty (hslice ▸ hparse)]
    exact ⟨sameAcceptance_of_verdict hverdict, fun _ => sameAnswer_of_verdict hverdict⟩

end

/-- A request for a route, in its four forms. -/
def caseRequest : PlainRequest where
  method := "POST"
  path := "/cases"
  text := "\x7b\"case_id\":\"c17\"\x7d"
  method_token := OracleFn.isToken_post
  path_absolute := by decide
  path_ne_root := by decide
  path_chars := Str.forall_mem (by decide)
  path_no_scheme := by decide

def caseMessage : Message := { OracleFn.sampleMessage with
  fields := [
    ⟨"Fn-Http-Method", " POST", by decide, Str.forall_mem (by decide), Str.forall_mem (by decide)⟩,
    ⟨"Fn-Http-Request-Url", " /cases", by decide, Str.forall_mem (by decide), Str.forall_mem (by decide)⟩,
    ⟨"Content-Length", " 17", by decide, Str.forall_mem (by decide), Str.forall_mem (by decide)⟩]
  framing := .contentLength (Utf8.encode caseRequest.text)
  fields_le := by decide
  bytes_le := by decide +kernel
  declared := ⟨⟨_, rfl, by decide, Str.forall_mem (by decide), by decide⟩, by decide⟩ }

def caseDeliveries : Deliveries .compact ⟨"cases", "POST", "/cases", "case_id", 4096, by decide⟩ where
  request := caseRequest
  v1 := .object [("httpMethod", .string "POST"), ("path", .string "/cases"),
    ("requestContext", .object [("stage", .string "prod")]), ("body", .string caseRequest.text)]
  v2 := .object [("rawPath", .string "/cases"),
    ("requestContext", .object [("http", .object [("method", .string "POST")])]),
    ("body", .string caseRequest.text), ("isBase64Encoded", .bool false)]
  http := ⟨"POST", "/cases", [("accept", Utf8.encode "*/*")], some (Utf8.encode caseRequest.text)⟩
  fn := caseMessage
  is_v1 := ⟨rfl, rfl, rfl, rfl, rfl, by decide +kernel⟩
  is_v2 := ⟨rfl, rfl, rfl, by decide +kernel⟩
  is_http := ⟨rfl, rfl, by rw [Lambdas.Unrelated]; decide +kernel, rfl⟩
  is_fn := ⟨by decide +kernel, by decide +kernel, by decide +kernel, by decide +kernel, rfl⟩
  text_le := by decide +kernel
  v1_le := ⟨_, rfl, by decide +kernel⟩
  v2_le := ⟨_, rfl, by decide +kernel⟩

theorem adapters_agree_case :
    let answers := caseDeliveries.answers .ascii (fun _ => ⟨1, 5, by decide⟩) (fun _ => "a") [] none
    SameAcceptance answers ∧
      ((SerdeJson.compact.fromStr caseDeliveries.request.text).isSome →
        SameAnswer .compact ⟨"cases", "POST", "/cases", "case_id", 4096, by decide⟩ answers) :=
  adapters_agree caseDeliveries _ _ _ _ SerdeJson.compact_strAgrees SerdeJson.compact_rejectsEmpty
    SerdeJson.compact_rendersAlike

end Adapters
