-- SUMMARY: The two CloudEvents decoders: where they decide alike, and the empty bodies on which they do not.
import ApmeWebMash.Lambdas.PortableHttp
import ApmeWebMash.OracleFn.Adapter

/-! # CloudEvents on two adapters

The portable adapter and the Oracle/Fn adapter decode the same events with code
of their own. Both are given one set of headers here: as a header map, and as
the ordered map that the Fn reader builds. -/

namespace Adapters

open Lambdas (decodeHttpPayload)
open Lambdas.CloudEvent (attributes nonBlank textMember validate validateEnvelope)
open OracleFn (decodePayload)

/-- Headers that both adapters can receive: distinct lower-case names, none of
    them added by the Fn runtime, and values of visible ASCII characters. -/
structure CommonHeaders where
  entries : List (Str × Str)
  distinct : (entries.map Prod.fst).Nodup
  lower : ∀ e ∈ entries, ∀ c ∈ e.1, c.isUpper = false
  not_fn : ∀ e ∈ entries, ¬ ("fn-http-h-" : Str) <+: e.1
  visible : ∀ e ∈ entries, ∀ c ∈ e.2, Str.isVisibleAscii c

namespace CommonHeaders

variable (headers : CommonHeaders)

/-- The headers as the portable adapter sees them. -/
def toHeaderMap : HeaderMap := headers.entries.map fun e => (e.1, Utf8.encode e.2)

/-- The headers as the Fn adapter sees them. -/
def toBTreeMap : BTreeMap Str Str := BTreeMap.ofList headers.entries

/-- The value of a header. -/
def get (name : Str) : Option Str := BTreeMap.lookupEntries name headers.entries

/-- The value of a header that is not blank. -/
def text (name : Str) : Option Str := (headers.get name).bind nonBlank

/-- The content type in lower case. -/
def contentType : Str := Str.toAsciiLowercase ((headers.get "content-type").getD [])

/-- The request declares an event in structured mode. -/
def Structured : Prop := Str.startsWith headers.contentType "application/cloudevents+json"

/-- The attributes of an event in binary mode are in order. -/
def BinaryAttributes : Prop :=
  headers.text "ce-specversion" = some ("1.0" : Str) ∧
    ∀ name ∈ attributes, (headers.text (("ce-" : Str) ++ name)).isSome

instance : Decidable headers.Structured := inferInstanceAs (Decidable (_ = true))

instance : Decidable headers.BinaryAttributes := inferInstanceAs (Decidable (_ ∧ _))

/-! ## One view of the headers -/

variable {headers} {http : HttpCrate}

theorem get_toHeaderMap (name : Str) :
    headers.toHeaderMap.get name = (headers.get name).map Utf8.encode :=
  BTreeMap.lookupEntries_map _ _ _

theorem get_toBTreeMap (name : Str) : headers.toBTreeMap.get name = headers.get name :=
  BTreeMap.get_ofList headers.distinct name

theorem get_fn_eq_none {name : Str} (h : ("fn-http-h-" : Str) <+: name) :
    headers.get name = none := by
  rw [Option.eq_none_iff_forall_ne_some]
  intro value hvalue
  exact headers.not_fn _ (BTreeMap.mem_of_lookupEntries hvalue) h

/-- A visible value is read back as it was written. -/
theorem bind_toStr (hreads : http.ReadsVisible) (name : Str) :
    (headers.toHeaderMap.get name).bind http.toStr = headers.get name := by
  rw [get_toHeaderMap]
  cases h : headers.get name with
  | none => rfl
  | some value => exact hreads value (headers.visible _ (BTreeMap.mem_of_lookupEntries h))

theorem http_firstHeader (hreads : http.ReadsVisible) (name : Str) :
    Lambdas.firstHeader http headers.toHeaderMap [name] = headers.text name := by
  rw [Lambdas.firstHeader, List.findSome?_cons, bind_toStr hreads, text]
  cases (headers.get name).bind nonBlank <;> rfl

theorem http_contentType (hreads : http.ReadsVisible) :
    Lambdas.contentType http headers.toHeaderMap = headers.contentType := by
  rw [Lambdas.contentType, bind_toStr hreads, contentType]

/-- The names under the prefix of the Fn runtime never decide. -/
theorem fn_firstHeader (name : Str) {fnName : Str} (h : ("fn-http-h-" : Str) <+: fnName) :
    OracleFn.firstHeader headers.toBTreeMap [name, fnName] = headers.text name := by
  rw [OracleFn.firstHeader, List.findSome?_cons, List.findSome?_cons, get_toBTreeMap,
    get_toBTreeMap, get_fn_eq_none h, text]
  cases (headers.get name).bind nonBlank <;> rfl

end CommonHeaders

/-! ## The decisions -/

section
variable (serde : SerdeJson) (http : HttpCrate)

/-- The payload that the portable adapter accepts. -/
def httpPayload (headers : CommonHeaders) (body : List UInt8) : Option Json :=
  (decodeHttpPayload serde http headers.toHeaderMap body).toOption.map Prod.fst

/-- The payload that the Fn adapter accepts. -/
def fnPayload (headers : CommonHeaders) (body : List UInt8) : Option Json :=
  (decodePayload serde headers.toBTreeMap headers.contentType body).toOption

/-- The event that a request declares is in order. A structured content type
    comes before the binary headers, and a blank version declares nothing. -/
def DeclaredEventValid (headers : CommonHeaders) (body : List UInt8) : Prop :=
  if headers.Structured then
    ∃ envelope, serde.fromSlice body = some envelope ∧
      (envelope.get "specversion").bind Json.asStr = some ("1.0" : Str) ∧
      ∀ name ∈ attributes, (textMember envelope name).isSome
  else headers.text "ce-specversion" = none ∨ headers.BinaryAttributes

/-- The adapters accept the same payload or reject the request both, and neither
    accepts a request whose event is not in order. -/
def DecodersAgree (headers : CommonHeaders) (body : List UInt8) : Prop :=
  httpPayload serde http headers body = fnPayload serde headers body ∧
    ((httpPayload serde http headers body).isSome ∨ (fnPayload serde headers body).isSome →
      DeclaredEventValid serde headers body)

end

variable {serde : SerdeJson} {http : HttpCrate} {headers : CommonHeaders} {body : List UInt8}

/-- The check of a binary event, as both adapters make it. -/
def checkBinaryEvent (headers : CommonHeaders) : Except Str Unit :=
  match headers.text "ce-specversion" with
  | none => .ok ()
  | some version =>
    validate (some version) fun name => (headers.text (("ce-" : Str) ++ name)).isSome

theorem http_checkBinaryEvent (hreads : http.ReadsVisible) :
    Lambdas.checkBinaryEvent http headers.toHeaderMap = checkBinaryEvent headers := by
  rw [Lambdas.checkBinaryEvent, checkBinaryEvent, CommonHeaders.http_firstHeader hreads]
  cases headers.text "ce-specversion" with
  | none => rfl
  | some version => simp only [CommonHeaders.http_firstHeader hreads]

theorem fn_checkBinaryEvent :
    OracleFn.checkBinaryEvent headers.toBTreeMap = checkBinaryEvent headers := by
  have hname : ∀ name : Str, ("fn-http-h-" : Str) <+: ("fn-http-h-ce-" : Str) ++ name := fun name =>
    List.IsPrefix.trans (by decide) (List.prefix_append _ name)
  have hversion : OracleFn.firstHeader headers.toBTreeMap
      ["ce-specversion", "fn-http-h-ce-specversion"] = headers.text "ce-specversion" :=
    CommonHeaders.fn_firstHeader _ (by decide)
  rw [OracleFn.checkBinaryEvent, checkBinaryEvent, hversion]
  cases headers.text "ce-specversion" with
  | none => rfl
  | some version => simp only [CommonHeaders.fn_firstHeader _ (hname _)]

theorem checkBinaryEvent_eq_ok :
    checkBinaryEvent headers = .ok () ↔
      headers.text "ce-specversion" = none ∨ headers.BinaryAttributes := by
  rw [checkBinaryEvent, CommonHeaders.BinaryAttributes]
  cases h : headers.text "ce-specversion" with
  | none => simp
  | some version => simp [Lambdas.CloudEvent.validate_eq_ok]

/-! ## Mode by mode -/

/-- What both adapters make of a structured event with a body. -/
def structuredPayload (serde : SerdeJson) (body : List UInt8) : Option Json :=
  (serde.fromSlice body).bind fun envelope =>
    (validateEnvelope envelope).toOption.map fun _ => Lambdas.CloudEvent.data envelope

/-- What both adapters make of another request with a body. -/
def plainPayload (serde : SerdeJson) (headers : CommonHeaders) (body : List UInt8) : Option Json :=
  (checkBinaryEvent headers).toOption.bind fun _ => serde.fromSlice body

theorem httpPayload_structured (hreads : http.ReadsVisible) (h : headers.Structured) :
    httpPayload serde http headers body = structuredPayload serde body := by
  have hstarts : Str.startsWith headers.contentType "application/cloudevents+json" := h
  rw [httpPayload, decodeHttpPayload, CommonHeaders.http_contentType hreads, if_pos hstarts,
    structuredPayload]
  cases serde.fromSlice body with
  | none => rfl
  | some envelope =>
    dsimp only [Option.bind_some]
    cases validateEnvelope envelope <;> rfl

theorem httpPayload_plain (hreads : http.ReadsVisible) (h : ¬ headers.Structured) :
    httpPayload serde http headers body =
      if body = [] then (checkBinaryEvent headers).toOption.map fun _ => .object []
      else plainPayload serde headers body := by
  have hstarts : ¬ Str.startsWith headers.contentType "application/cloudevents+json" := h
  rw [httpPayload, decodeHttpPayload, CommonHeaders.http_contentType hreads, if_neg hstarts,
    http_checkBinaryEvent hreads, plainPayload]
  cases checkBinaryEvent headers with
  | error _ => split <;> rfl
  | ok _ =>
    by_cases hbody : body = []
    · rw [if_pos hbody, if_pos hbody]
      rfl
    · rw [if_neg hbody, if_neg hbody]
      cases serde.fromSlice body <;> rfl

/-- The Fn adapter takes every empty body for an empty object. -/
theorem fnPayload_nil : fnPayload serde headers [] = some (.object []) := rfl

theorem fnPayload_structured (hbody : body ≠ []) (h : headers.Structured) :
    fnPayload serde headers body = structuredPayload serde body := by
  have hstarts : Str.startsWith headers.contentType "application/cloudevents+json" := h
  rw [fnPayload, decodePayload, if_neg hbody, structuredPayload]
  cases serde.fromSlice body with
  | none => rfl
  | some envelope =>
    dsimp only [Option.bind_some]
    rw [if_pos hstarts, OracleFn.validateStructuredCloudEvent]
    cases validateEnvelope envelope <;> rfl

theorem fnPayload_plain (hbody : body ≠ []) (h : ¬ headers.Structured) :
    fnPayload serde headers body = plainPayload serde headers body := by
  have hstarts : ¬ Str.startsWith headers.contentType "application/cloudevents+json" := h
  rw [fnPayload, decodePayload, if_neg hbody, fn_checkBinaryEvent, plainPayload]
  cases serde.fromSlice body with
  | none => cases checkBinaryEvent headers <;> rfl
  | some v =>
    dsimp only
    rw [if_neg hstarts]
    cases checkBinaryEvent headers <;> rfl

/-! ## Agreement -/

theorem exists_envelope_of_structuredPayload (hsome : (structuredPayload serde body).isSome) :
    ∃ envelope, serde.fromSlice body = some envelope ∧
      (envelope.get "specversion").bind Json.asStr = some ("1.0" : Str) ∧
      ∀ name ∈ attributes, (textMember envelope name).isSome := by
  rw [structuredPayload] at hsome
  cases hbody : serde.fromSlice body with
  | none =>
    rw [hbody] at hsome
    cases hsome
  | some envelope =>
    have hvalid : validateEnvelope envelope = .ok () := by
      rw [hbody, Option.bind_some, Option.isSome_map] at hsome
      cases hcheck : validateEnvelope envelope with
      | ok _ => rfl
      | error _ =>
        rw [hcheck] at hsome
        cases hsome
    exact ⟨envelope, rfl, Lambdas.CloudEvent.validate_eq_ok.mp hvalid⟩

/-- With a body the adapters make the same of a request. -/
theorem httpPayload_eq_fnPayload (hreads : http.ReadsVisible) (hbody : body ≠ []) :
    httpPayload serde http headers body = fnPayload serde headers body := by
  by_cases h : headers.Structured
  · rw [httpPayload_structured hreads h, fnPayload_structured hbody h]
  · rw [httpPayload_plain hreads h, if_neg hbody, fnPayload_plain hbody h]

theorem declaredEventValid_of_httpPayload (hreads : http.ReadsVisible)
    (hsome : (httpPayload serde http headers body).isSome) :
    DeclaredEventValid serde headers body := by
  rw [DeclaredEventValid]
  by_cases h : headers.Structured
  · rw [httpPayload_structured hreads h] at hsome
    rw [if_pos h]
    exact exists_envelope_of_structuredPayload hsome
  · rw [if_neg h, ← checkBinaryEvent_eq_ok]
    rw [httpPayload_plain hreads h] at hsome
    cases hcheck : checkBinaryEvent headers with
    | ok _ => rfl
    | error _ =>
      rw [plainPayload, hcheck] at hsome
      by_cases hbody : body = []
      · rw [if_pos hbody] at hsome
        cases hsome
      · rw [if_neg hbody] at hsome
        cases hsome

/-- The decoders agree on a request exactly when it has a body, or declares no
    event, or declares a binary event that is in order. -/
theorem decodersAgree_iff (hreads : http.ReadsVisible) (hempty : serde.RejectsEmpty) :
    DecodersAgree serde http headers body ↔
      body ≠ [] ∨ (¬ headers.Structured ∧
        (headers.text "ce-specversion" = none ∨ headers.BinaryAttributes)) := by
  constructor
  · rintro ⟨hsame, -⟩
    by_cases hbody : body = []
    · subst hbody
      rw [fnPayload_nil] at hsame
      refine .inr ?_
      -- the Fn decoder answers an empty body before it looks at the headers
      by_cases h : headers.Structured
      · rw [httpPayload_structured hreads h, structuredPayload, hempty] at hsame
        cases hsame
      · rw [httpPayload_plain hreads h, if_pos rfl] at hsame
        refine ⟨h, checkBinaryEvent_eq_ok.mp ?_⟩
        cases hcheck : checkBinaryEvent headers with
        | ok _ => rfl
        | error _ =>
          rw [hcheck] at hsame
          cases hsame
    · exact .inl hbody
  · intro hcond
    have hsame : httpPayload serde http headers body = fnPayload serde headers body := by
      by_cases hbody : body = []
      · obtain hne | ⟨h, hbinary⟩ := hcond
        · exact absurd hbody hne
        · rw [httpPayload_plain hreads h, if_pos hbody, checkBinaryEvent_eq_ok.mpr hbinary, hbody,
            fnPayload_nil]
          rfl
      · exact httpPayload_eq_fnPayload hreads hbody
    refine ⟨hsame, fun hsome => declaredEventValid_of_httpPayload hreads ?_⟩
    rw [← hsame, or_self] at hsome
    exact hsome

/-- The headers of a request that declares structured mode. -/
def structuredHeaders : CommonHeaders where
  entries := [("content-type", "application/cloudevents+json")]
  distinct := by decide
  lower := List.forall_mem_singleton.mpr (Str.forall_mem (by decide))
  not_fn := by decide +kernel
  visible := List.forall_mem_singleton.mpr (Str.forall_mem (by decide))

theorem structuredHeaders_structured : structuredHeaders.Structured := by
  decide +kernel

/-- A structured event with a body, even one that is not JSON, is decided alike. -/
theorem decodersAgree_structured : DecodersAgree .compact .ascii structuredHeaders [123] :=
  (decodersAgree_iff HttpCrate.ascii_readsVisible SerdeJson.compact_rejectsEmpty).mpr
    (.inl (by decide))

/-- An empty structured event is rejected by one adapter and accepted by the
    other. -/
theorem not_decodersAgree_empty : ¬ DecodersAgree .compact .ascii structuredHeaders [] := by
  rintro ⟨hsame, -⟩
  rw [httpPayload_structured HttpCrate.ascii_readsVisible structuredHeaders_structured,
    structuredPayload, SerdeJson.compact_rejectsEmpty, fnPayload_nil] at hsame
  cases hsame

end Adapters
