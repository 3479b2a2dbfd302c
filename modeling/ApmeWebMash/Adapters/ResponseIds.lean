-- SUMMARY: Every response carries one correlation identifier, but for the early exits of the portable adapter.
import ApmeWebMash.Adapters.CorrelationId
import ApmeWebMash.OracleFn.ResponseFraming

/-! # Identifiers of responses

The dispatcher puts an identifier into every answer, and so do the AWS and the
Fn adapter where they answer without it. The portable adapter has no identifier
yet when it rejects a body, and answers without one. -/

namespace Adapters

open Lambdas (FunctionResponse Host HttpRequest HttpResponse RouteSpec ValidRequestId errorBody
  functionResponse tooLargeBody withRequestId)
open OracleFn (WireResponse)

/-! ## What a response carries -/

/-- The headers under `x-request-id`, in any case. -/
def requestIdHeaders {β : Type} (headers : List (Str × β)) : List (Str × β) :=
  headers.filter fun header => Str.toAsciiLowercase header.1 = "x-request-id"

/-- There is exactly one such header, and a `request_id` in the document of the
    body has its value. -/
def CarriesId {β : Type} (headers : List (Str × β)) (render : Str → β) (doc : Json) : Prop :=
  ∃ id name, requestIdHeaders headers = [(name, render id)] ∧
    ∀ v, doc.get "request_id" = some v → v = .string id

section
variable (serde : SerdeJson)

/-- An envelope for API Gateway carries an identifier. -/
def AwsCarriesId (response : Json) : Prop :=
  ∃ headers doc, response.get "headers" = some (.object headers) ∧
    response.get "body" = some (.string
      ((serde.toString doc).getD "\x7b\"error\":\"serialization_failed\"\x7d")) ∧
    CarriesId headers .string doc

/-- An HTTP response carries an identifier. -/
def HttpCarriesId (response : HttpResponse) : Prop :=
  ∃ doc, response.body =
      (serde.toVec doc).getD (Utf8.encode "\x7b\"error\":\"serialization_failed\"\x7d") ∧
    CarriesId response.headers Utf8.encode doc

/-- A response on the Fn socket carries an identifier. -/
def FnCarriesId (response : WireResponse) : Prop :=
  ∃ doc, response.body =
      (serde.toVec doc).getD (Utf8.encode "\x7b\"error\":\"serialization_failed\"\x7d") ∧
    CarriesId response.fields (fun id => id) doc

/-- The portable adapter gets to the dispatcher: the body can be read, is within
    the limit, and is what the headers say. -/
def HttpDecodes (http : HttpCrate) (request : HttpRequest) (spec : RouteSpec) : Prop :=
  ∃ body decoded, request.body = some body ∧ body.length ≤ spec.maxEventBytes ∧
    Lambdas.decodeHttpPayload serde http request.headers body = .ok decoded

end

/-! ## Answers -/

/-- An answer with an identifier, before it is rendered. -/
structure Identified (response : FunctionResponse) (id : Str) : Prop where
  valid : ValidRequestId id
  get_id : response.headers.get "x-request-id" = some id
  name_mem : ∀ name, (response.headers.get name).isSome → name ∈ responseNames
  body_id : ∀ v, response.body.get "request_id" = some v → v = .string id

variable {serde : SerdeJson} {http : HttpCrate} {host : Host} {spec : RouteSpec}
  {response : FunctionResponse} {id : Str}

theorem identified_withRequestId {status : Nat} {body : Json} {allow : Option Str}
    (hvalid : ValidRequestId id) (h : ∀ v, body.get "request_id" = some v → v = .string id) :
    Identified (withRequestId (functionResponse status body allow) id) id where
  valid := hvalid
  get_id := Lambdas.get_withRequestId _ _
  name_mem := fun _ => name_of_withRequestId name_of_functionResponse
  body_id := by simpa using h

theorem get_errorBody (error : Str) : (errorBody error).get "request_id" = none := rfl

theorem get_tooLargeBody (spec : RouteSpec) : (tooLargeBody spec).get "request_id" = none := rfl

theorem identified_verdict (hvalid : ValidRequestId id) (verdict : Lambdas.Verdict) :
    Identified (withRequestId (verdict.answer spec id) id) id := by
  cases verdict with
  | accepted => exact identified_withRequestId hvalid fun v hv => (Option.some.inj hv).symm
  | tooLarge | notFound | methodNotAllowed | missingField =>
    exact identified_withRequestId hvalid fun v hv => by cases hv

theorem identified_awsAnswer (payload : Json) (contextId : Str) :
    Identified (Lambdas.awsAnswer serde host payload contextId spec)
      (Lambdas.awsRequestId host contextId) := by
  have hvalid := Lambdas.valid_awsRequestId host contextId
  rw [Lambdas.awsAnswer]
  cases hreq : Lambdas.awsRequest serde host payload contextId with
  | error response =>
    simp only [Lambdas.awsRequest] at hreq
    split at hreq
    · rw [← Except.error.inj hreq]
      exact identified_withRequestId hvalid fun v hv => by cases hv
    · cases hreq
  | ok request =>
    dsimp only
    rw [Lambdas.dispatchRequest_eq, Lambdas.awsRequest_requestId hreq]
    exact identified_verdict hvalid _

theorem identified_errorResponse {status : Nat} {body : Json} (hvalid : ValidRequestId id)
    (h : body.get "request_id" = none) :
    Identified (OracleFn.errorResponse status body id) id where
  valid := hvalid
  get_id := OracleFn.get_errorResponse status body id
  name_mem := by
    intro name hname
    rw [OracleFn.errorResponse, OracleFn.defaultHeaders, BTreeMap.get_ofList] at hname
    · obtain ⟨value, hvalue⟩ := Option.isSome_iff_exists.mp hname
      have hmem := List.mem_map_of_mem (f := Prod.fst) (BTreeMap.mem_of_lookupEntries hvalue)
      have hsub : ∀ name ∈ (["cache-control", "content-type", "x-request-id"] : List Str),
          name ∈ responseNames := by decide
      exact hsub name hmem
    · change (["cache-control", "content-type", "x-request-id"] : List Str).Nodup
      decide
  body_id := by
    intro v hv
    rw [OracleFn.errorResponse, h] at hv
    cases hv

/-- What the Fn adapter answers without the dispatcher. -/
theorem identified_fnInput {source : Source} {outerStatus : Nat}
    (h : OracleFn.fnInput serde host source spec = .failed outerStatus response) :
    ∃ id, Identified response id := by
  have hfailed : ∀ {status status' : Nat} {body : Json} {id : Str},
      OracleFn.FnInput.failed status' (OracleFn.errorResponse status body id) =
        .failed outerStatus response →
      ValidRequestId id → body.get "request_id" = none → ∃ id, Identified response id := by
    intro status status' body id h hvalid hbody
    obtain ⟨-, rfl⟩ := OracleFn.FnInput.failed.inj h
    exact ⟨id, identified_errorResponse hvalid hbody⟩
  -- a request that is not read has no headers to take an identifier from
  have hgenerated := OracleFn.valid_generatedRequestId host
  rw [OracleFn.fnInput] at h
  split at h
  · rename_i request _
    rw [OracleFn.fnRequest] at h
    cases hdecode : OracleFn.decodePayload serde request.headers
        (OracleFn.contentType request.headers) request.body with
    | error error =>
      rw [hdecode] at h
      exact hfailed h (OracleFn.valid_fnRequestId host _) (get_errorBody error)
    | ok payload =>
      rw [hdecode] at h
      cases h
  · cases h
  · exact hfailed h hgenerated (get_tooLargeBody spec)
  · exact hfailed h hgenerated (get_errorBody _)
  · exact hfailed h hgenerated (get_errorBody _)
  · cases h
  · cases h

theorem identified_fnAnswer {source : Source} {outerStatus : Nat}
    (h : OracleFn.fnAnswer serde host source spec = some (outerStatus, response)) :
    ∃ id, Identified response id := by
  rw [OracleFn.fnAnswer] at h
  split at h
  · cases h
  · cases h
  · rename_i hinput
    obtain ⟨rfl, rfl⟩ := Prod.mk.inj (Option.some.inj h)
    exact identified_fnInput hinput
  · rename_i normalized hinput
    obtain ⟨-, rfl⟩ := Prod.mk.inj (Option.some.inj h)
    rw [Lambdas.dispatchRequest_eq]
    exact ⟨_, identified_verdict (OracleFn.valid_requestId hinput) _⟩

/-! ## Renderings -/

/-- In lower case, a header is found under its own name. -/
theorem requestIdHeaders_entries {m : BTreeMap Str Str}
    (h : ∀ header ∈ m.entries, ∀ c ∈ header.1, c.isUpper = false) :
    requestIdHeaders m.entries =
      ((m.get "x-request-id").map fun id => (("x-request-id" : Str), id)).toList := by
  rw [← BTreeMap.filter_entries, requestIdHeaders]
  refine List.filter_congr fun header hmem => ?_
  rw [Str.toAsciiLowercase_eq_self (h header hmem)]
  congr

theorem isUpper_responseNames : ∀ name ∈ responseNames, ∀ c ∈ name, c.isUpper = false := by
  have hall : ∀ name ∈ responseNames, name.all fun c => decide (c.isUpper = false) := by decide
  exact fun name hname => Str.forall_mem (hall name hname)

/-- What holds of the names that are found holds of the entries. -/
theorem name_mem_of_entries {m : BTreeMap Str Str}
    (h : ∀ name, (m.get name).isSome → name ∈ responseNames) :
    ∀ header ∈ m.entries, header.1 ∈ responseNames := by
  rintro ⟨name, value⟩ hmem
  refine h name ?_
  rw [BTreeMap.get_eq_some_iff.mpr hmem]
  rfl

theorem Identified.isUpper_entries (h : Identified response id) :
    ∀ header ∈ response.headers.entries, ∀ c ∈ header.1, c.isUpper = false :=
  fun header hmem => isUpper_responseNames _ (name_mem_of_entries h.name_mem header hmem)

/-- A rendering that keeps the names can be put behind a choice by name. -/
theorem filter_filterMap {β : Type} {headers : List (Str × Str)} {f : Str × Str → Option (Str × β)}
    (p : Str → Bool)
    (h : ∀ header ∈ headers, ∀ rendered, f header = some rendered → rendered.1 = header.1) :
    (headers.filterMap f).filter (fun header => p header.1) =
      (headers.filter fun header => p header.1).filterMap f := by
  rw [List.filter_filterMap, List.filterMap_filter]
  refine List.filterMap_congr fun header hmem => ?_
  cases hf : f header with
  | none => simp
  | some rendered =>
    rw [Option.filter_some, h header hmem rendered hf]

theorem requestIdHeaders_filterMap {β : Type} {m : BTreeMap Str Str} {f : Str × Str → Option (Str × β)}
    (hname : ∀ header ∈ m.entries, ∀ rendered, f header = some rendered → rendered.1 = header.1)
    (h : ∀ header ∈ m.entries, ∀ c ∈ header.1, c.isUpper = false) :
    requestIdHeaders (m.entries.filterMap f) =
      ((m.get "x-request-id").bind fun id => f ("x-request-id", id)).toList := by
  have hfilter : requestIdHeaders (m.entries.filterMap f) =
      (requestIdHeaders m.entries).filterMap f :=
    filter_filterMap (fun name => Str.toAsciiLowercase name = "x-request-id") hname
  rw [hfilter, requestIdHeaders_entries h]
  generalize ("x-request-id" : Str) = key
  cases m.get key with
  | none => rfl
  | some id =>
    rw [Option.map_some, Option.toList_some, Option.bind_some]
    cases hf : f (key, id) with
    | none =>
      rw [List.filterMap_cons_none hf]
      rfl
    | some rendered =>
      rw [List.filterMap_cons_some hf]
      rfl

theorem carriesId_filterMap {β : Type} {m : BTreeMap Str Str} {f : Str × Str → Option (Str × β)}
    (render : Str → β) {doc : Json}
    (hname : ∀ header ∈ m.entries, ∀ rendered, f header = some rendered → rendered.1 = header.1)
    (h : ∀ header ∈ m.entries, ∀ c ∈ header.1, c.isUpper = false)
    (hget : m.get "x-request-id" = some id)
    (hf : f ("x-request-id", id) = some (("x-request-id" : Str), render id))
    (hdoc : ∀ v, doc.get "request_id" = some v → v = .string id) :
    CarriesId (m.entries.filterMap f) render doc := by
  refine ⟨id, "x-request-id", ?_, hdoc⟩
  rw [requestIdHeaders_filterMap hname h, hget, Option.bind_some, hf, Option.toList_some]

/-! ## Adapters -/

theorem aws_carries_id (serde : SerdeJson) (host : Host) (payload : Json) (contextId : Str)
    (spec : RouteSpec) : AwsCarriesId serde (Lambdas.dispatch serde host payload contextId spec) := by
  have hanswer := @identified_awsAnswer serde host spec payload contextId
  refine ⟨_, _, rfl, rfl, ?_⟩
  rw [← List.filterMap_eq_map']
  exact carriesId_filterMap Json.string (fun _ _ _ h => by rw [← Option.some.inj h]) hanswer.isUpper_entries
    hanswer.get_id rfl hanswer.body_id

/-- The two last fields are no identifiers. -/
theorem requestIdHeaders_lastFields (body : List UInt8) :
    requestIdHeaders (OracleFn.lastFields body) = [] := by
  have hlast : ∀ name ∈ (["content-length", "connection"] : List Str),
      Str.toAsciiLowercase name ≠ "x-request-id" := by decide
  refine List.filter_eq_nil_iff.mpr fun header hmem heq => ?_
  exact hlast header.1 (List.mem_map_of_mem (f := Prod.fst) hmem) (of_decide_eq_true heq)

theorem fn_carries_id {source : Source} {wire : WireResponse}
    (h : OracleFn.handleStream serde host source spec = some wire) : FnCarriesId serde wire := by
  obtain ⟨⟨outerStatus, response⟩, hanswer, rfl⟩ := Option.map_eq_some_iff.mp h
  obtain ⟨id, hid⟩ := identified_fnAnswer hanswer
  have hget : (OracleFn.fnHeaders response).get "x-request-id" = some id := by
    rw [OracleFn.get_fnHeaders (by decide), hid.get_id]
  have hheader : (OracleFn.validHeaderName "x-request-id" && OracleFn.validHeaderValue id) = true :=
    Bool.and_eq_true_iff.mpr ⟨by decide, validHeaderValue_of_valid hid.valid⟩
  obtain ⟨_, name, hone, hdoc⟩ := carriesId_filterMap
    (f := Option.guard fun header =>
      OracleFn.validHeaderName header.1 && OracleFn.validHeaderValue header.2)
    (fun id => id) (fun _ _ _ h => by rw [← (Option.guard_eq_some_iff.mp h).1])
    (OracleFn.isUpper_fnHeaders hid.isUpper_entries) hget
    (Option.guard_eq_some_iff.mpr ⟨rfl, hheader⟩) hid.body_id
  refine ⟨_, rfl, _, name, ?_, hdoc⟩
  rw [← hone, List.filterMap_eq_filter, WireResponse.fields, requestIdHeaders,
    List.filter_append, ← requestIdHeaders, ← requestIdHeaders, requestIdHeaders_lastFields,
    List.append_nil]
  rfl

/-- The portable adapter gets to the dispatcher exactly with a request that it
    can decode. -/
theorem exists_httpRequest_iff (host : Host) {request : HttpRequest} :
    (∃ normalized, Lambdas.httpRequest serde http host request spec = .ok normalized) ↔
      HttpDecodes serde http request spec := by
  constructor
  · rintro ⟨normalized, h⟩
    rw [Lambdas.httpRequest] at h
    split at h
    · cases h
    · rename_i body hbytes
      split at h
      · cases h
      · rename_i hlen
        split at h
        · cases h
        · rename_i hdecode
          exact ⟨body, _, (Option.filter_eq_some_iff.mp hbytes).1, Nat.le_of_not_lt hlen, hdecode⟩
  · rintro ⟨body, decoded, hbody, hlen, hdecode⟩
    rw [Lambdas.httpRequest_eq hbody hlen, hdecode]
    exact ⟨_, rfl⟩

/-- The rendered headers keep the names of the response. -/
theorem name_httpResponse (hnames : http.AcceptsNames) {request : HttpRequest} :
    ∀ header ∈ (Lambdas.httpAnswer serde http host request spec).headers.entries, ∀ rendered,
      (do
        let name ← http.headerName header.1
        let value ← http.headerValue header.2
        some (name, value)) = some rendered → rendered.1 = header.1 := by
  intro header hmem rendered h
  have hname := headerName_responseNames hnames
    (name_mem_of_entries (fun _ => name_of_httpAnswer) header hmem)
  rw [hname] at h
  obtain ⟨name, hsome, h⟩ := Option.bind_eq_some_iff.mp h
  obtain ⟨value, -, heq⟩ := Option.bind_eq_some_iff.mp h
  rw [← Option.some.inj heq, ← Option.some.inj hsome]

theorem http_carries_id_iff (hnames : http.AcceptsNames) (hvalues : http.AcceptsVisible)
    (host : Host) (request : HttpRequest) (spec : RouteSpec) :
    HttpCarriesId serde (Lambdas.httpHandler serde http host request spec) ↔
      HttpDecodes serde http request spec := by
  have hname := @name_httpResponse serde http host spec hnames request
  have hupper : ∀ header ∈ (Lambdas.httpAnswer serde http host request spec).headers.entries,
      ∀ c ∈ header.1, c.isUpper = false := fun header hmem =>
    isUpper_responseNames _ (name_mem_of_entries (fun _ => name_of_httpAnswer) header hmem)
  have hmem : ("x-request-id" : Str) ∈ responseNames := by decide
  have hxid := headerName_responseNames hnames hmem
  rw [← exists_httpRequest_iff host]
  constructor
  · rintro ⟨doc, -, id, name, hone, -⟩
    cases hrequest : Lambdas.httpRequest serde http host request spec with
    | ok normalized => exact ⟨normalized, rfl⟩
    | error response =>
      -- an answer to a request that does not decode carries no identifier
      have hget : (Lambdas.httpAnswer serde http host request spec).headers.get "x-request-id" =
          none := by
        rw [Lambdas.httpAnswer, hrequest]
        exact Lambdas.get_of_httpRequest_error hrequest
      have hnone := requestIdHeaders_filterMap hname hupper
      rw [hget] at hnone
      cases hnone.symm.trans hone
  · rintro ⟨normalized, hrequest⟩
    have hanswer : Identified (Lambdas.httpAnswer serde http host request spec)
        normalized.requestId := by
      rw [Lambdas.httpAnswer, hrequest]
      dsimp only
      rw [Lambdas.dispatchRequest_eq]
      exact identified_verdict (Lambdas.valid_of_httpRequest hrequest) _
    refine ⟨_, rfl, carriesId_filterMap Utf8.encode hname hupper hanswer.get_id ?_ hanswer.body_id⟩
    rw [hxid, hvalues _ hanswer.valid.isVisibleAscii]
    rfl

/-- Every response of the AWS and of the Fn adapter carries an identifier, and a
    response of the portable adapter does exactly when its request gets to the
    dispatcher. -/
theorem responses_carry_id (hnames : http.AcceptsNames) (hvalues : http.AcceptsVisible) :
    (∀ host payload contextId spec,
      AwsCarriesId serde (Lambdas.dispatch serde host payload contextId spec)) ∧
    (∀ host request spec,
      HttpCarriesId serde (Lambdas.httpHandler serde http host request spec) ↔
        HttpDecodes serde http request spec) ∧
    ∀ host source spec wire, OracleFn.handleStream serde host source spec = some wire →
      FnCarriesId serde wire :=
  ⟨aws_carries_id serde, http_carries_id_iff hnames hvalues, fun _ _ _ _ => fn_carries_id⟩

/-- With the strict parser and the byte classes of HTTP. -/
theorem responses_carry_id_ascii :
    (∀ host payload contextId spec,
      AwsCarriesId .compact (Lambdas.dispatch .compact host payload contextId spec)) ∧
    (∀ host request spec,
      HttpCarriesId .compact (Lambdas.httpHandler .compact .ascii host request spec) ↔
        HttpDecodes .compact .ascii request spec) ∧
    ∀ host source spec wire, OracleFn.handleStream .compact host source spec = some wire →
      FnCarriesId .compact wire :=
  responses_carry_id HttpCrate.ascii_acceptsNames HttpCrate.ascii_acceptsVisible

/-- The answer to a body that is not JSON carries no identifier. -/
theorem not_httpCarriesId_invalid_json :
    ¬ HttpCarriesId .compact (Lambdas.httpHandler .compact .ascii ⟨1, 5, by decide⟩
      ⟨"POST", "/cases", [("x-request-id", Utf8.encode "r-1")], some (Utf8.encode "\x7b")⟩
      ⟨"cases", "POST", "/cases", "case_id", 4096, by decide⟩) := by
  rintro ⟨doc, -, id, name, hone, -⟩
  have hnone : requestIdHeaders (Lambdas.httpHandler .compact .ascii ⟨1, 5, by decide⟩
      ⟨"POST", "/cases", [("x-request-id", Utf8.encode "r-1")], some (Utf8.encode "\x7b")⟩
      ⟨"cases", "POST", "/cases", "case_id", 4096, by decide⟩).headers = [] := by decide +kernel
  rw [hnone] at hone
  cases hone

end Adapters
