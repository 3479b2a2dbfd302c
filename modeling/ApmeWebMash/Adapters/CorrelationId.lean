-- SUMMARY: Correlation identifiers are safe on every adapter: in the dispatched request, in response headers, and in the log line.
import ApmeWebMash.Lambdas.Aws
import ApmeWebMash.Lambdas.PortableHttp
import ApmeWebMash.OracleFn.Adapter

/-! # Correlation identifiers on the adapters

An identifier is sanitized or generated before an adapter uses it, so it is
valid wherever it goes. A valid identifier is a header value on either HTTP
side, and it needs no escape in JSON. -/

namespace Adapters

open Lambdas (FunctionRequest FunctionResponse Host HttpRequest RouteSpec ValidRequestId)

section
variable (serde : SerdeJson) (http : HttpCrate)

/-- The AWS adapter dispatches under a valid identifier, and every
    `x-request-id` of its responses is one. -/
def AwsIdsSafe : Prop :=
  ∀ (host : Host) (payload : Json) (contextId : Str) (spec : RouteSpec),
    (∀ request, Lambdas.awsRequest serde host payload contextId = .ok request →
      ValidRequestId request.requestId) ∧
    ∃ headers,
      (Lambdas.dispatch serde host payload contextId spec).get "headers" = some (.object headers) ∧
      (∃ id, (("x-request-id" : Str), Json.string id) ∈ headers) ∧
      ∀ v, (("x-request-id" : Str), v) ∈ headers → ∃ id, v = .string id ∧ ValidRequestId id

/-- The portable adapter dispatches under a valid identifier, every
    `x-request-id` of its responses is one, and none is dropped. -/
def HttpIdsSafe : Prop :=
  ∀ (host : Host) (request : HttpRequest) (spec : RouteSpec),
    (∀ normalized, Lambdas.httpRequest serde http host request spec = .ok normalized →
      ValidRequestId normalized.requestId) ∧
    (∀ value, (("x-request-id" : Str), value) ∈
        (Lambdas.httpHandler serde http host request spec).headers →
      ∃ id, value = Utf8.encode id ∧ ValidRequestId id) ∧
    ∀ id, (Lambdas.httpAnswer serde http host request spec).headers.get "x-request-id" = some id →
      (("x-request-id" : Str), Utf8.encode id) ∈
        (Lambdas.httpHandler serde http host request spec).headers

/-- The Fn adapter dispatches under a valid identifier, every `x-request-id` of
    its responses is one, and every response has one. -/
def FnIdsSafe : Prop :=
  ∀ (host : Host) (source : Source) (spec : RouteSpec),
    (∀ request, OracleFn.fnInput serde host source spec = .request request →
      ValidRequestId request.requestId) ∧
    ∀ response, OracleFn.handleStream serde host source spec = some response →
      (∃ id, (("x-request-id" : Str), id) ∈ response.headers) ∧
      ∀ id, (("x-request-id" : Str), id) ∈ response.headers → ValidRequestId id

end

/-- A text that JSON does not escape. -/
def NeedsNoEscape (text : Str) : Prop := ∀ c ∈ text, Json.escapeChar c = [c]

/-- What a log line about a request under a valid identifier is: one line, which
    holds one JSON object with the identifier. -/
def LogSafe : Prop :=
  ∀ (request : FunctionRequest) (spec : RouteSpec), ValidRequestId request.requestId →
    NeedsNoEscape spec.handler → NeedsNoEscape spec.path → NeedsNoEscape spec.method →
    ∀ line ∈ (Lambdas.dispatchRequest request spec).log,
      '\n' ∉ line ∧ ∃ members, Json.parse line = some (.object members) ∧
        members.filter (fun member => member.1 = ("request_id" : Str)) =
          [(("request_id" : Str), Json.string request.requestId)]

variable {serde : SerdeJson} {http : HttpCrate} {host : Host}

/-! ## AWS -/

theorem aws_ids_safe : AwsIdsSafe serde := by
  intro host payload contextId spec
  have hvalid := Lambdas.valid_awsRequestId host contextId
  have hget := Lambdas.get_awsAnswer serde host payload contextId spec
  refine ⟨fun request h => ?_, _, rfl, ?_, fun v hv => ?_⟩
  · rw [Lambdas.awsRequest_requestId h]
    exact hvalid
  · refine ⟨_, List.mem_map.mpr ⟨_, BTreeMap.get_eq_some_iff.mp hget, rfl⟩⟩
  · obtain ⟨⟨name, value⟩, hmem, heq⟩ := List.mem_map.mp hv
    obtain ⟨rfl, rfl⟩ := Prod.mk.inj heq
    rw [BTreeMap.get_eq_some_iff.mpr hmem] at hget
    exact ⟨_, rfl, Option.some.inj hget ▸ hvalid⟩

/-! ## Portable HTTP -/

/-- The names of the headers that the dispatcher and its adapters set. -/
def responseNames : List Str := ["cache-control", "content-type", "allow", "x-request-id"]

theorem name_of_functionResponse {status : Nat} {body : Json} {allow : Option Str} {name : Str}
    (h : ((Lambdas.functionResponse status body allow).headers.get name).isSome) :
    name ∈ responseNames := by
  -- what is inserted into a map is in it or was in it before
  have hlist : ∀ es : List (Str × Str), ∀ m : BTreeMap Str Str,
      ((es.foldl (fun m e => m.insert e.1 e.2) m).get name).isSome →
        name ∈ es.map Prod.fst ∨ (m.get name).isSome := by
    intro es
    induction es with
    | nil => exact fun m h => .inr h
    | cons e es ih =>
      intro m h
      rcases ih _ h with h | h
      · exact .inl (List.mem_cons_of_mem _ h)
      · rw [BTreeMap.get_insert] at h
        by_cases hname : name = e.1
        · exact .inl (hname ▸ List.mem_cons_self)
        · rw [if_neg hname] at h
          exact .inr h
  have hbase : ∀ h : ((BTreeMap.ofList [(("cache-control" : Str), ("no-store" : Str)),
      ("content-type", "application/json")]).get name).isSome, name ∈ responseNames := by
    intro h
    rcases hlist _ _ h with h | h
    · exact List.mem_append_left _ h
    · simp at h
  cases allow with
  | none => exact hbase h
  | some method =>
    simp only [Lambdas.functionResponse, BTreeMap.get_insert] at h
    split at h
    · rename_i hname
      rw [hname]
      decide
    · exact hbase h

theorem name_of_withRequestId {response : FunctionResponse} {requestId name : Str}
    (hresponse : (response.headers.get name).isSome → name ∈ responseNames)
    (h : ((Lambdas.withRequestId response requestId).headers.get name).isSome) :
    name ∈ responseNames := by
  rw [Lambdas.withRequestId, BTreeMap.get_insert] at h
  split at h
  · rename_i hname
    rw [hname]
    decide
  · exact hresponse h

theorem name_of_httpAnswer {request : HttpRequest} {spec : RouteSpec} {name : Str}
    (h : ((Lambdas.httpAnswer serde http host request spec).headers.get name).isSome) :
    name ∈ responseNames := by
  rw [Lambdas.httpAnswer] at h
  cases hreq : Lambdas.httpRequest serde http host request spec with
  | ok normalized =>
    obtain ⟨_, _, _, hanswer⟩ := Lambdas.Verdict.exists_functionResponse spec normalized.requestId
      (Lambdas.verdict normalized spec)
    rw [hreq] at h
    dsimp only at h
    rw [Lambdas.dispatchRequest_eq, hanswer] at h
    exact name_of_withRequestId name_of_functionResponse h
  | error response =>
    rw [hreq] at h
    obtain ⟨status, body, rfl⟩ := Lambdas.exists_functionResponse_of_httpRequest hreq
    exact name_of_functionResponse h

/-- The header names of the adapters are header names. -/
theorem headerName_responseNames (hnames : http.AcceptsNames) {name : Str}
    (h : name ∈ responseNames) : http.headerName name = some name := by
  have hall : ∀ name ∈ responseNames,
      name ≠ [] ∧ name.all fun c => c.isLower || c.isDigit || c == '-' := by decide
  obtain ⟨hne, hchars⟩ := hall name h
  exact hnames name hne (List.all_eq_true.mp hchars)

theorem http_ids_safe (hnames : http.AcceptsNames) (hvalues : http.AcceptsVisible) :
    HttpIdsSafe serde http := by
  intro host request spec
  have hvalid : ∀ id,
      (Lambdas.httpAnswer serde http host request spec).headers.get "x-request-id" = some id →
        ValidRequestId id := by
    intro id h
    rw [Lambdas.httpAnswer] at h
    cases hreq : Lambdas.httpRequest serde http host request spec with
    | ok normalized =>
      rw [hreq] at h
      dsimp only at h
      rw [Lambdas.get_dispatchRequest] at h
      exact Option.some.inj h ▸ Lambdas.valid_of_httpRequest hreq
    | error response =>
      rw [hreq] at h
      dsimp only at h
      rw [Lambdas.get_of_httpRequest_error hreq] at h
      cases h
  refine ⟨fun normalized h => Lambdas.valid_of_httpRequest h, fun value hvalue => ?_, fun id hid => ?_⟩
  · obtain ⟨⟨name, id⟩, hmem, hheader⟩ := List.mem_filterMap.mp hvalue
    have hget := BTreeMap.get_eq_some_iff.mpr hmem
    have hsome : ((Lambdas.httpAnswer serde http host request spec).headers.get name).isSome := by
      rw [hget]
      rfl
    -- all names of a response are constants, which `http` takes as they are
    have hname := headerName_responseNames hnames (name_of_httpAnswer hsome)
    simp only [hname, Option.bind_eq_bind, Option.bind_some, Option.bind_eq_some_iff,
      Option.some.injEq, Prod.mk.injEq] at hheader
    obtain ⟨bytes, hbytes, rfl, rfl⟩ := hheader
    have hid := hvalid id hget
    rw [hvalues id hid.isVisibleAscii] at hbytes
    exact ⟨id, (Option.some.inj hbytes).symm, hid⟩
  · refine List.mem_filterMap.mpr ⟨_, BTreeMap.get_eq_some_iff.mp hid, ?_⟩
    have hmem : ("x-request-id" : Str) ∈ responseNames := by decide
    have hname := headerName_responseNames hnames hmem
    simp only [hname, hvalues id (hvalid id hid).isVisibleAscii]
    rfl

/-! ## Oracle/Fn -/

theorem validHeaderValue_of_valid {id : Str} (h : ValidRequestId id) :
    OracleFn.validHeaderValue id := by
  refine OracleFn.validHeaderValue_iff.mpr ⟨fun hmem => ?_, fun hmem => ?_⟩
  · exact absurd (h.visible '\r' hmem).1 (by decide)
  · exact absurd (h.visible '\n' hmem).1 (by decide)

theorem fn_ids_safe : FnIdsSafe serde := by
  intro host source spec
  refine ⟨fun request => OracleFn.valid_requestId, fun response hresponse => ?_⟩
  obtain ⟨⟨outerStatus, answer⟩, hanswer, rfl⟩ := Option.map_eq_some_iff.mp hresponse
  obtain ⟨id, hid, hvalid⟩ := OracleFn.get_fnAnswer hanswer
  have hget : (OracleFn.fnHeaders answer).get "x-request-id" = some id := by
    rw [OracleFn.get_fnHeaders (by decide), hid]
  refine ⟨⟨id, ?_⟩, fun value hvalue => ?_⟩
  · exact OracleFn.mem_writeFnResponse.mpr
      ⟨hget, by decide, validHeaderValue_of_valid hvalid⟩
  · obtain ⟨hvalue, -, -⟩ := OracleFn.mem_writeFnResponse.mp hvalue
    rw [hget] at hvalue
    exact Option.some.inj hvalue ▸ hvalid

/-! ## The log line -/

theorem needsNoEscape_of_valid {id : Str} (h : ValidRequestId id) : NeedsNoEscape id := by
  intro c hc
  obtain ⟨hlow, -⟩ := h.visible c hc
  have hchar := h.chars c hc
  have hquote : ¬ (c = '"' ∨ c = '\\') := by
    rintro (rfl | rfl) <;> exact absurd hchar (by decide)
  rw [Json.escapeChar, if_neg hquote, if_neg (by omega)]

theorem newline_not_mem {text : Str} (h : NeedsNoEscape text) : '\n' ∉ text := by
  intro hmem
  exact absurd (h '\n' hmem) (by decide)

/-- The members of the log object. -/
def logMembers (request : FunctionRequest) (spec : RouteSpec) : List (Str × Json) := [
  ("level", .string "info"),
  ("event", .string "accepted_heavy_route"),
  ("handler", .string spec.handler),
  ("route", .string spec.path),
  ("method", .string spec.method),
  ("request_id", .string request.requestId),
  ("event_bytes", .number (Numeral.decimal request.eventBytes))]

/-- The rendered object, cut where the printed line interpolates its values. -/
theorem joined_eq_render {request : FunctionRequest} {spec : RouteSpec}
    {head routeKey methodKey idKey bytesKey last : Str}
    (hid : NeedsNoEscape request.requestId) (hhandler : NeedsNoEscape spec.handler)
    (hpath : NeedsNoEscape spec.path) (hmethod : NeedsNoEscape spec.method)
    (hhead : head = '{' :: '"' :: (Json.escape "level" ++ '"' :: ':' ::
      ('"' :: (Json.escape "info" ++ ['"']) ++ ',' :: '"' :: (Json.escape "event" ++ '"' :: ':' ::
        ('"' :: (Json.escape "accepted_heavy_route" ++ ['"']) ++
          ',' :: '"' :: (Json.escape "handler" ++ ['"', ':', '"']))))))
    (hrouteKey : routeKey = '"' :: ',' :: '"' :: (Json.escape "route" ++ ['"', ':', '"']))
    (hmethodKey : methodKey = '"' :: ',' :: '"' :: (Json.escape "method" ++ ['"', ':', '"']))
    (hidKey : idKey = '"' :: ',' :: '"' :: (Json.escape "request_id" ++ ['"', ':', '"']))
    (hbytesKey : bytesKey = '"' :: ',' :: '"' :: (Json.escape "event_bytes" ++ ['"', ':']))
    (hlast : last = ['}']) :
    head ++ spec.handler ++ routeKey ++ spec.path ++ methodKey ++ spec.method ++ idKey ++
        request.requestId ++ bytesKey ++ Numeral.decimal request.eventBytes ++ last =
      Json.render (.object (logMembers request spec)) := by
  subst hhead hrouteKey hmethodKey hidKey hbytesKey hlast
  simp only [Json.render, logMembers, Json.renderMembers, Json.escape_eq_self hid,
    Json.escape_eq_self hhandler, Json.escape_eq_self hpath, Json.escape_eq_self hmethod,
    List.append_assoc, List.cons_append, List.nil_append]

/-- Without characters to escape, the printed line is the rendered object. -/
theorem acceptLogLine_eq_render {request : FunctionRequest} {spec : RouteSpec}
    (hid : NeedsNoEscape request.requestId) (hhandler : NeedsNoEscape spec.handler)
    (hpath : NeedsNoEscape spec.path) (hmethod : NeedsNoEscape spec.method) :
    Lambdas.acceptLogLine request spec = Json.render (.object (logMembers request spec)) :=
  joined_eq_render hid hhandler hpath hmethod (by decide +kernel) (by decide +kernel)
    (by decide +kernel) (by decide +kernel) (by decide +kernel) (by decide)

theorem filter_logMembers (request : FunctionRequest) (spec : RouteSpec) :
    (logMembers request spec).filter (fun member => member.1 = ("request_id" : Str)) =
      [(("request_id" : Str), Json.string request.requestId)] := by
  have hkeys : ∀ key ∈ (["level", "event", "handler", "route", "method", "event_bytes"] : List Str),
      key ≠ "request_id" := by decide
  simp only [List.forall_mem_cons] at hkeys
  obtain ⟨h₁, h₂, h₃, h₄, h₅, h₆, -⟩ := hkeys
  have hskip : ∀ {key : Str} (v : Json) (members : List (Str × Json)), key ≠ "request_id" →
      ((key, v) :: members).filter (fun member => member.1 = ("request_id" : Str)) =
        members.filter fun member => member.1 = ("request_id" : Str) := fun _ _ h =>
    List.filter_cons_of_neg fun hkey => h (of_decide_eq_true hkey)
  have hkeep : ∀ (v : Json) (members : List (Str × Json)),
      ((("request_id" : Str), v) :: members).filter (fun member => member.1 = ("request_id" : Str)) =
        (("request_id" : Str), v) :: members.filter fun member => member.1 = ("request_id" : Str) :=
    fun _ _ => List.filter_cons_of_pos (decide_eq_true rfl)
  rw [logMembers, hskip _ _ h₁, hskip _ _ h₂, hskip _ _ h₃, hskip _ _ h₄, hskip _ _ h₅, hkeep,
    hskip _ _ h₆, List.filter_nil]

theorem newline_not_mem_acceptLogLine {request : FunctionRequest} {spec : RouteSpec}
    (hid : NeedsNoEscape request.requestId) (hhandler : NeedsNoEscape spec.handler)
    (hpath : NeedsNoEscape spec.path) (hmethod : NeedsNoEscape spec.method) :
    '\n' ∉ Lambdas.acceptLogLine request spec := by
  have hbytes : '\n' ∉ Numeral.decimal request.eventBytes :=
    (Numeral.writes_decimal _).not_mem (by decide)
  unfold Lambdas.acceptLogLine
  simp only [List.mem_append, not_or]
  refine ⟨⟨⟨⟨⟨⟨⟨⟨⟨⟨?_, newline_not_mem hhandler⟩, ?_⟩, newline_not_mem hpath⟩, ?_⟩,
    newline_not_mem hmethod⟩, ?_⟩, newline_not_mem hid⟩, ?_⟩, hbytes⟩, ?_⟩
  all_goals decide +kernel

theorem log_safe : LogSafe := by
  intro request spec hvalid hhandler hpath hmethod line hline
  have hid := needsNoEscape_of_valid hvalid
  have hlog : line = Lambdas.acceptLogLine request spec := by
    rw [Lambdas.dispatchRequest_eq] at hline
    dsimp only at hline
    split at hline
    · exact List.mem_singleton.mp hline
    · cases hline
  have hwf : (Json.object (logMembers request spec)).WellFormed := by
    simp only [Json.WellFormed, Json.WellFormedMembers, logMembers, Json.isNumber_decimal, and_self]
  rw [hlog]
  refine ⟨newline_not_mem_acceptLogLine hid hhandler hpath hmethod, logMembers request spec, ?_,
    filter_logMembers request spec⟩
  rw [acceptLogLine_eq_render hid hhandler hpath hmethod]
  exact Json.parse_render hwf

/-- On every adapter the identifier that reaches the dispatcher, and every one
    that appears in a response, is valid; none is dropped from a response; and
    the log line about a request is one JSON object with its identifier. -/
theorem correlation_ids_safe (hnames : http.AcceptsNames) (hvalues : http.AcceptsVisible) :
    AwsIdsSafe serde ∧ HttpIdsSafe serde http ∧ FnIdsSafe serde ∧ LogSafe :=
  ⟨aws_ids_safe, http_ids_safe hnames hvalues, fn_ids_safe, log_safe⟩

/-- With the strict parser and the byte classes of HTTP. -/
theorem correlation_ids_safe_ascii :
    AwsIdsSafe .compact ∧ HttpIdsSafe .compact .ascii ∧ FnIdsSafe .compact ∧ LogSafe :=
  correlation_ids_safe HttpCrate.ascii_acceptsNames HttpCrate.ascii_acceptsVisible

end Adapters
