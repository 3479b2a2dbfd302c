-- SUMMARY: The structured and the binary delivery of one event, and that the portable HTTP adapter answers both alike.
import ApmeWebMash.Lambdas.PortableHttp

/-! # CloudEvents modes

One event can be delivered as an envelope (structured mode) or with its
attributes in headers (binary mode). The portable adapter decodes the two in
branches of their own. They arrive at the same payload and at the same
identifier, and so at the same response. -/

namespace Lambdas

open CloudEvent (attributes nonBlank textMember validate)

/-- An event: its attributes are visible and not blank. -/
structure Event where
  id : Str
  source : Str
  type : Str
  data : Option Json
  visible : ∀ s ∈ [id, source, type], ∀ c ∈ s, Str.isVisibleAscii c
  not_blank : ∀ s ∈ [id, source, type], Str.trim s ≠ []

namespace Event

variable (event : Event)

/-- The headers of the structured delivery. -/
def structuredHeaders : HeaderMap := [("content-type", Utf8.encode "application/cloudevents+json")]

/-- The headers of the binary delivery. -/
def binaryHeaders : HeaderMap := [
  ("ce-specversion", Utf8.encode "1.0"),
  ("ce-id", Utf8.encode event.id),
  ("ce-source", Utf8.encode event.source),
  ("ce-type", Utf8.encode event.type)]

/-- The body of the structured delivery is an envelope of the event. -/
def IsStructuredBody (serde : SerdeJson) (body : List UInt8) : Prop :=
  ∃ envelope, serde.fromSlice body = some envelope ∧
    envelope.get "specversion" = some (.string "1.0") ∧
    envelope.get "id" = some (.string event.id) ∧
    envelope.get "source" = some (.string event.source) ∧
    envelope.get "type" = some (.string event.type) ∧
    envelope.get "data" = event.data

/-- The body of the binary delivery is the serialized data, or empty. -/
def IsBinaryBody (serde : SerdeJson) (body : List UInt8) : Prop :=
  match event.data with
  | none => body = []
  | some d => serde.toVec d = some body

/-- An envelope of the event. -/
def envelope : Json :=
  .object (("specversion", .string "1.0") :: ("id", .string event.id) ::
    ("source", .string event.source) :: ("type", .string event.type) ::
    event.data.toList.map fun d => ("data", d))

/-- The payload of the event. -/
def payload : Json := event.data.getD (.object [])

variable {event} {serde : SerdeJson} {http : HttpCrate} {others : HeaderMap}
  {structuredBody binaryBody : List UInt8}

theorem wellFormed_envelope (h : ∀ d, event.data = some d → d.WellFormed) :
    event.envelope.WellFormed := by
  rw [envelope]
  cases hdata : event.data with
  | none => simp [Json.WellFormed, Json.WellFormedMembers]
  | some d => simp [Json.WellFormed, Json.WellFormedMembers, h d hdata]

/-- The serialized envelope is a body of the structured delivery. -/
theorem isStructuredBody_envelope (hundoes : serde.Undoes event.envelope)
    (hbody : serde.toVec event.envelope = some structuredBody) :
    event.IsStructuredBody serde structuredBody := by
  refine ⟨_, hundoes _ hbody, rfl, rfl, rfl, rfl, ?_⟩
  have hskip : event.envelope.get "data" =
      Json.lookup "data" (event.data.toList.map fun d => ("data", d)) := rfl
  rw [hskip]
  cases event.data <;> rfl

/-! ## The headers -/

theorem lookup_append {name : Str} {headers : HeaderMap} (h : ∀ e ∈ headers, e.1 ≠ name) :
    HeaderMap.get (headers ++ others) name = others.get name := by
  induction headers with
  | nil => rfl
  | cons e headers ih =>
    obtain ⟨hne, hrest⟩ := List.forall_mem_cons.mp h
    simp only [HeaderMap.get] at ih ⊢
    rw [List.cons_append, BTreeMap.lookupEntries, if_neg hne, ih hrest]

theorem firstHeader_append {headers : HeaderMap} {names : List Str}
    (h : ∀ name ∈ names, ∀ e ∈ headers, e.1 ≠ name) :
    firstHeader http (headers ++ others) names = firstHeader http others names := by
  induction names with
  | nil => rfl
  | cons name names ih =>
    obtain ⟨hname, hnames⟩ := List.forall_mem_cons.mp h
    simp only [firstHeader, List.findSome?_cons] at ih ⊢
    rw [lookup_append hname, ih hnames]

/-- The names of the headers of the binary delivery. -/
def binaryNames : List Str := ["ce-specversion", "ce-id", "ce-source", "ce-type"]

theorem ne_of_mem_binaryHeaders {name : Str} (h : name ∉ binaryNames) :
    ∀ e ∈ event.binaryHeaders, e.1 ≠ name := by
  intro e he hname
  have hmap : event.binaryHeaders.map Prod.fst = binaryNames := rfl
  exact h (hname ▸ hmap ▸ List.mem_map_of_mem he)

theorem requestIdFromHeaders_structured :
    requestIdFromHeaders http (structuredHeaders ++ others) = requestIdFromHeaders http others := by
  rw [requestIdFromHeaders, firstHeader_append (by decide +kernel), requestIdFromHeaders]

theorem requestIdFromHeaders_binary :
    requestIdFromHeaders http (event.binaryHeaders ++ others) =
      requestIdFromHeaders http others := by
  have hnames : ∀ name ∈ correlationHeaders, name ∉ binaryNames := by decide +kernel
  rw [requestIdFromHeaders,
    firstHeader_append fun name hname => ne_of_mem_binaryHeaders (hnames name hname),
    requestIdFromHeaders]

/-! ## The structured delivery -/

theorem contentType_structured (hreads : http.ReadsVisible) :
    Str.startsWith (contentType http (structuredHeaders ++ others)) "application/cloudevents+json" := by
  have hget : HeaderMap.get (structuredHeaders ++ others) "content-type" =
      some (Utf8.encode "application/cloudevents+json") := rfl
  rw [contentType, hget, Option.bind_some, hreads _ (Str.forall_mem (by decide)), Option.getD_some]
  decide +kernel

theorem textMember_isSome {envelope : Json} {name value : Str}
    (h : envelope.get name = some (.string value)) (hblank : Str.trim value ≠ []) :
    (textMember envelope name).isSome := by
  rw [textMember, h]
  exact CloudEvent.nonBlank_isSome.mpr hblank

theorem decodeHttpPayload_structured (hreads : http.ReadsVisible)
    (hbody : event.IsStructuredBody serde structuredBody) :
    decodeHttpPayload serde http (structuredHeaders ++ others) structuredBody =
      .ok (event.payload, some event.id) := by
  obtain ⟨envelope, hparse, hversion, hid, hsource, htype, hdata⟩ := hbody
  have hvalid : CloudEvent.validateEnvelope envelope = .ok () := by
    rw [CloudEvent.validateEnvelope, CloudEvent.validate_eq_ok, hversion]
    refine ⟨rfl, ?_⟩
    simp only [attributes, List.forall_mem_cons]
    exact ⟨textMember_isSome hid (event.not_blank _ (by simp)),
      textMember_isSome hsource (event.not_blank _ (by simp)),
      textMember_isSome htype (event.not_blank _ (by simp)), by simp⟩
  rw [decodeHttpPayload, if_pos (contentType_structured hreads), hparse]
  dsimp only
  rw [hvalid, CloudEvent.data, hdata, hid]
  rfl

/-! ## The binary delivery -/

/-- A header of the event is read back trimmed. -/
theorem firstHeader_attribute (event : Event) (hreads : http.ReadsVisible) {headers : HeaderMap}
    {name value : Str} (hget : headers.get name = some (Utf8.encode value))
    (hvalue : value ∈ [event.id, event.source, event.type]) :
    firstHeader http headers [name] = some (Str.trim value) := by
  rw [firstHeader, List.findSome?_cons, hget, Option.bind_some,
    hreads value (event.visible value hvalue), Option.bind_some, nonBlank,
    if_neg (event.not_blank value hvalue)]

theorem firstHeader_binary (hreads : http.ReadsVisible) :
    firstHeader http (event.binaryHeaders ++ others) ["ce-id"] = some (Str.trim event.id) ∧
    firstHeader http (event.binaryHeaders ++ others) ["ce-source"] = some (Str.trim event.source) ∧
    firstHeader http (event.binaryHeaders ++ others) ["ce-type"] = some (Str.trim event.type) :=
  ⟨firstHeader_attribute event hreads rfl (by simp),
    firstHeader_attribute event hreads rfl (by simp),
    firstHeader_attribute event hreads rfl (by simp)⟩

theorem checkBinaryEvent_binary (hreads : http.ReadsVisible) :
    checkBinaryEvent http (event.binaryHeaders ++ others) = .ok () := by
  have hversion : firstHeader http (event.binaryHeaders ++ others) ["ce-specversion"] =
      some ("1.0" : Str) := by
    have hget : HeaderMap.get (event.binaryHeaders ++ others) "ce-specversion" =
        some (Utf8.encode "1.0") := rfl
    rw [firstHeader, List.findSome?_cons, hget, Option.bind_some, hreads _ (Str.forall_mem (by decide))]
    rfl
  obtain ⟨hid, hsource, htype⟩ := @firstHeader_binary event http others hreads
  rw [checkBinaryEvent, hversion]
  dsimp only
  rw [CloudEvent.validate_eq_ok]
  refine ⟨rfl, ?_⟩
  simp only [attributes, List.forall_mem_cons]
  exact ⟨Option.isSome_of_eq_some hid, Option.isSome_of_eq_some hsource,
    Option.isSome_of_eq_some htype, by simp⟩

theorem decodeHttpPayload_binary (hreads : http.ReadsVisible) (hempty : serde.RejectsEmpty)
    (hundoes : ∀ d, event.data = some d → serde.Undoes d) (hothers : Unrelated others)
    (hbody : event.IsBinaryBody serde binaryBody) :
    decodeHttpPayload serde http (event.binaryHeaders ++ others) binaryBody =
      .ok (event.payload, some (Str.trim event.id)) := by
  have hcontent : contentType http (event.binaryHeaders ++ others) = [] := by
    have hname : ("content-type" : Str) ∉ binaryNames := by decide +kernel
    rw [contentType, lookup_append (ne_of_mem_binaryHeaders hname),
      get_contentType_of_unrelated hothers]
    rfl
  have hplain : ¬ Str.startsWith [] "application/cloudevents+json" := by decide +kernel
  rw [decodeHttpPayload, hcontent, if_neg hplain, checkBinaryEvent_binary hreads,
    (firstHeader_binary hreads).1]
  rw [IsBinaryBody] at hbody
  rw [payload]
  -- without data the body is empty, and the payload an empty object
  cases hdata : event.data with
  | none =>
    rw [hdata] at hbody
    dsimp only at hbody
    subst hbody
    rfl
  | some d =>
    rw [hdata] at hbody
    dsimp only at hbody
    have hparse := hundoes d hdata binaryBody hbody
    have hne : binaryBody ≠ [] := by
      rintro rfl
      rw [hempty] at hparse
      cases hparse
    rw [if_neg hne, hparse]
    rfl

/-! ## The response -/

/-- Both deliveries lead to one identifier, unless it is generated. -/
theorem httpRequestId_modes {host host' : Host}
    (hid : (sanitizeRequestId event.id).isSome ∨ (requestIdFromHeaders http others).isSome) :
    httpRequestId http host (structuredHeaders ++ others) (some event.id) =
      httpRequestId http host' (event.binaryHeaders ++ others) (some (Str.trim event.id)) := by
  have htrim : sanitizeRequestId (Str.trim event.id) = sanitizeRequestId event.id :=
    RequestId.sanitize_trim event.id
  rw [httpRequestId, httpRequestId, requestIdFromHeaders_structured, requestIdFromHeaders_binary,
    Option.bind_some, Option.bind_some, htrim]
  have hsome : ((sanitizeRequestId event.id).or (requestIdFromHeaders http others)).isSome := by
    rw [Option.isSome_or, Bool.or_eq_true]
    exact hid
  obtain ⟨id, hor⟩ := Option.isSome_iff_exists.mp hsome
  rw [hor, Option.getD_some, Option.getD_some]

end Event

variable {event : Event} {serde : SerdeJson} {http : HttpCrate} {host host' : Host}
  {others : HeaderMap} {method path : Str} {structuredBody binaryBody : List UInt8}
  {spec : RouteSpec}

/-- The portable adapter gives the same response to an event in structured mode
    and in binary mode. -/
theorem httpHandler_structured_eq_binary (hreads : http.ReadsVisible) (hempty : serde.RejectsEmpty)
    (hundoes : ∀ d, event.data = some d → serde.Undoes d) (hothers : Unrelated others)
    (hstructured : event.IsStructuredBody serde structuredBody)
    (hbinary : event.IsBinaryBody serde binaryBody)
    (hslen : structuredBody.length ≤ spec.maxEventBytes)
    (hblen : binaryBody.length ≤ spec.maxEventBytes)
    (hid : (sanitizeRequestId event.id).isSome ∨ (requestIdFromHeaders http others).isSome) :
    httpHandler serde http host
        ⟨method, path, Event.structuredHeaders ++ others, some structuredBody⟩ spec =
      httpHandler serde http host'
        ⟨method, path, event.binaryHeaders ++ others, some binaryBody⟩ spec := by
  refine congrArg (httpResponse serde http) ?_
  refine Eq.trans (httpAnswer_of_decode rfl hslen
    (Event.decodeHttpPayload_structured hreads hstructured)) ?_
  refine Eq.trans ?_ (Eq.symm (httpAnswer_of_decode rfl hblen
    (Event.decodeHttpPayload_binary hreads hempty hundoes hothers hbinary)))
  dsimp only
  rw [Event.httpRequestId_modes hid]

/-- An event about a case. -/
def caseEvent : Event where
  id := " case-17 "
  source := "/cases"
  type := "case.created"
  data := some (.object [("case_id", .string "c 17")])
  visible := by
    simp only [List.forall_mem_cons]
    exact ⟨Str.forall_mem (by decide), Str.forall_mem (by decide), Str.forall_mem (by decide),
      by simp⟩
  not_blank := by decide +kernel

theorem wellFormed_data_caseEvent {d : Json} (h : caseEvent.data = some d) : d.WellFormed := by
  obtain rfl := Option.some.inj h
  simp [Json.WellFormed, Json.WellFormedMembers]

theorem caseEvent_structured_eq_binary :
    httpHandler .compact .ascii ⟨1, 5, by decide⟩
        ⟨"POST", "/cases", Event.structuredHeaders ++ [(("accept" : Str), Utf8.encode "*/*")],
          some (Utf8.encode (Json.render caseEvent.envelope))⟩
        ⟨"cases", "POST", "/cases", "case_id", 4096, by decide⟩ =
      httpHandler .compact .ascii ⟨2, 6, by decide⟩
        ⟨"POST", "/cases", caseEvent.binaryHeaders ++ [(("accept" : Str), Utf8.encode "*/*")],
          some (Utf8.encode (Json.render (.object [("case_id", .string "c 17")])))⟩
        ⟨"cases", "POST", "/cases", "case_id", 4096, by decide⟩ := by
  have hothers : Unrelated [(("accept" : Str), Utf8.encode "*/*")] := by
    rw [Unrelated]
    decide +kernel
  have hstructured : caseEvent.IsStructuredBody .compact
      (Utf8.encode (Json.render caseEvent.envelope)) :=
    Event.isStructuredBody_envelope
      (SerdeJson.compact_undoes (Event.wellFormed_envelope fun _ => wellFormed_data_caseEvent)) rfl
  exact httpHandler_structured_eq_binary HttpCrate.ascii_readsVisible SerdeJson.compact_rejectsEmpty
    (fun _ hd => SerdeJson.compact_undoes (wellFormed_data_caseEvent hd)) hothers hstructured rfl
    (by decide +kernel) (by decide +kernel) (.inl (by decide +kernel))

end Lambdas
