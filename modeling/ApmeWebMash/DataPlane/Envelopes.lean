-- SUMMARY: Which documents are accepted as responses of the JetStream and the TCP avenue: the intended objects, and arrays of their values.
import ApmeWebMash.DataPlane.Nats
import ApmeWebMash.DataPlane.Tcp

/-! # Response envelopes

Both structs deny unknown fields, so an object is accepted only with the members
that were written down. But a derived struct is also read from an array, and the
checks that follow see only the struct. -/

namespace DataPlane

open DerivedStruct (field)
open Nats (acceptedFields statusFields)
open Tcp (responseFields)

/-! ## What a response should be -/

section
variable (uuid : UuidCrate)

/-- The status response of an operation: an object with these members and no
    others, in any order. -/
def StatusObject (operationId : Uuid) (doc : Json) : Prop :=
  ∃ members text databaseReady, doc = .object members ∧ uuid.parse text = some operationId ∧
    members.Perm (acceptedFields text databaseReady)

/-- The members of the response to a request. -/
structure FrameMembers (requestId : Uuid) (members : List (Str × Json)) : Prop where
  known : ∀ member ∈ members, member.1 ∈ responseFields
  nodup : (members.map Prod.fst).Nodup
  request_id : ∃ text, (("request_id" : Str), Json.string text) ∈ members ∧
    uuid.parse text = some requestId
  status : (("status" : Str), Json.string "ok") ∈ members
  payload : ∃ payload, (("payload" : Str), payload) ∈ members ∧ payload ≠ .null
  error : ∀ v, (("error" : Str), v) ∈ members → v = .null

/-- The response to a request is an object with such members. -/
def FrameObject (requestId : Uuid) (doc : Json) : Prop :=
  ∃ members, doc = .object members ∧ FrameMembers uuid requestId members

end

/-! ## The other shape -/

section
variable (serde : SerdeJson) (uuid : UuidCrate)

/-- The values of a status response without their names, in the order of the
    declaration. -/
def StatusArray (operationId : Uuid) (doc : Json) : Prop :=
  ∃ text databaseReady, doc = .array [.string Nats.responseSchema, .string text, .string "ok",
    .string "apme-api", .bool databaseReady] ∧ uuid.parse text = some operationId

/-- The values of a response frame without their names. -/
def FrameArray (requestId : Uuid) (doc : Json) : Prop :=
  ∃ text payload, doc = .array [.string text, .string "ok", payload, .null] ∧
    uuid.parse text = some requestId ∧ payload ≠ .null ∧ (serde.value payload).isSome

/-- A payload that is accepted for the operation is its status response. -/
def StrictStatus (payload : List UInt8) (operationId : Uuid) : Prop :=
  ∀ v, Nats.decodeResponse serde uuid payload operationId = .ok v →
    ∃ doc, serde.parse payload = some doc ∧ StatusObject uuid operationId doc

/-- A frame that is accepted for the request is the response to it. -/
def StrictFrame (frame : List UInt8) (requestId : Uuid) : Prop :=
  ∀ v, Tcp.receiveResponse serde uuid requestId (.frame frame) = .ok v →
    ∃ doc, serde.parse frame = some doc ∧ FrameObject uuid requestId doc

end

variable {serde : SerdeJson} {uuid : UuidCrate} {requestId operationId : Uuid} {doc : Json}
  {members : List (Str × Json)}

/-! ## Status responses -/

/-- A document that is read as a status response is the object or the array. -/
theorem object_or_array_of_answers (h : Nats.Answers uuid doc operationId) :
    StatusObject uuid operationId doc ∨ StatusArray uuid operationId doc := by
  obtain ⟨hshape, text, databaseReady, htext, hfields⟩ := h
  have hnames := Nats.acceptedFields_names text databaseReady
  cases doc with
  | object members =>
    refine .inl ⟨members, text, databaseReady, rfl, htext, ?_⟩
    exact DerivedStruct.perm_of_hasFields hshape hnames Nats.nodup_statusFields hfields
  | array items =>
    refine .inr ⟨text, databaseReady, ?_, htext⟩
    rw [DerivedStruct.items_of_hasFields hshape hnames Nats.nodup_statusFields hfields]
    rfl
  | null | bool _ | number _ | string _ => cases hshape

theorem answers_of_array (h : StatusArray uuid operationId doc) :
    Nats.Answers uuid doc operationId := by
  obtain ⟨text, databaseReady, rfl, htext⟩ := h
  refine ⟨rfl, text, databaseReady, htext, ?_⟩
  exact DerivedStruct.hasFields_array (Nats.acceptedFields_names text databaseReady)
    Nats.nodup_statusFields

theorem strictStatus_iff (payload : List UInt8) (operationId : Uuid) :
    StrictStatus serde uuid payload operationId ↔
      ¬ ∃ doc, serde.parse payload = some doc ∧ StatusArray uuid operationId doc := by
  constructor
  · rintro hstrict ⟨doc, hparse, harray⟩
    obtain ⟨v, hv⟩ := Nats.exists_decodeResponse_iff.mpr ⟨doc, hparse, answers_of_array harray⟩
    obtain ⟨doc', hparse', members, _, _, rfl, -⟩ := hstrict v hv
    rw [hparse] at hparse'
    obtain ⟨_, _, rfl, -⟩ := harray
    cases hparse'
  · intro hnone v hv
    obtain ⟨doc, hparse, hanswers⟩ := Nats.exists_decodeResponse_iff.mp ⟨v, hv⟩
    rcases object_or_array_of_answers hanswers with hobject | harray
    · exact ⟨doc, hparse, hobject⟩
    · exact absurd ⟨doc, hparse, harray⟩ hnone

/-! ## Response frames -/

/-- A value that is there and is not `null` is read. -/
theorem optionalField_of_ne_null {α : Type} {read : Json → Option α} {v : Json} {a : α}
    (hnull : v ≠ .null) (hread : read v = some a) :
    Tcp.optionalField read (some v) = some (some a) := by
  cases v with
  | null => exact absurd rfl hnull
  | bool _ | number _ | string _ | array _ | object _ =>
    rw [Tcp.optionalField, hread]
    · rfl
    · exact hnull

/-- The document is read as an `ok` response to the request. -/
structure FrameAnswers (serde : SerdeJson) (uuid : UuidCrate) (doc : Json) (requestId : Uuid) :
    Prop where
  shape : DerivedStruct.isShape responseFields doc
  request_id : ∃ text, field responseFields doc "request_id" = some (.string text) ∧
    uuid.parse text = some requestId
  status : field responseFields doc "status" = some (.string "ok")
  payload : ∃ payload, field responseFields doc "payload" = some payload ∧ payload ≠ .null ∧
    (serde.value payload).isSome
  error : ∀ v, field responseFields doc "error" = some v → v = .null

theorem exists_ofJson_iff :
    (∃ payload, Tcp.FrameResponse.ofJson serde uuid doc =
        some ⟨requestId, "ok", some payload, none⟩) ↔
      FrameAnswers serde uuid doc requestId := by
  rw [Tcp.FrameResponse.ofJson]
  constructor
  · rintro ⟨v, h⟩
    split at h
    · rename_i hshape
      simp only [Option.bind_eq_bind, Option.bind_eq_some_iff, Option.some.injEq,
        Tcp.FrameResponse.mk.injEq, Json.asStr_eq_some] at h
      obtain ⟨_, hid, _, ⟨text, rfl, hparse⟩, _, hstatus, _, rfl, _, hpayload, _, herror,
        rfl, rfl, rfl, rfl⟩ := h
      obtain ⟨payload, hfield, hnull, hvalue⟩ := Tcp.optionalField_eq_some hpayload
      refine ⟨hshape, ⟨text, hid, hparse⟩, hstatus, ⟨payload, hfield, hnull, ?_⟩, fun w hw => ?_⟩
      · exact Option.isSome_of_mem hvalue
      · rcases Tcp.optionalField_eq_none herror with hnone | hnone
        · rw [hw] at hnone
          cases hnone
        · rw [hw] at hnone
          exact Option.some.inj hnone
    · cases h
  · rintro ⟨hshape, ⟨text, hid, hparse⟩, hstatus, ⟨payload, hfield, hnull, hvalue⟩, herror⟩
    obtain ⟨v, hv⟩ := Option.isSome_iff_exists.mp hvalue
    -- `null` would be read as an absent payload
    have hread := optionalField_of_ne_null hnull hv
    have hnone : Tcp.optionalField Json.asStr (field responseFields doc "error") = some none := by
      cases hfound : field responseFields doc "error" with
      | none => rfl
      | some w =>
        rw [herror w hfound]
        rfl
    refine ⟨v, ?_⟩
    rw [if_pos hshape, hid, hstatus, hfield, hread, hnone]
    simp [Json.asStr, hparse]

theorem exists_receiveResponse_iff {frame : List UInt8} :
    (∃ v, Tcp.receiveResponse serde uuid requestId (.frame frame) = .ok v) ↔
      frame.length ≤ Tcp.maxResponseBytes ∧
        ∃ doc, serde.parse frame = some doc ∧ FrameAnswers serde uuid doc requestId := by
  simp only [← exists_ofJson_iff]
  constructor
  · rintro ⟨v, h⟩
    rw [Tcp.receiveResponse] at h
    split at h
    · cases h
    · rename_i hlength
      refine ⟨Nat.not_lt.mp hlength, ?_⟩
      split at h
      · cases h
      · rename_i response hdecode
        rw [Tcp.acceptResponse_eq_ok.mp h] at hdecode
        obtain ⟨doc, hparse, hdoc⟩ := Option.bind_eq_some_iff.mp hdecode
        exact ⟨doc, hparse, v, hdoc⟩
  · rintro ⟨hlength, doc, hparse, v, hdoc⟩
    refine ⟨v, ?_⟩
    rw [Tcp.receiveResponse, if_neg (Nat.not_lt.mpr hlength), Tcp.decodeResponse, hparse,
      Option.bind_some, hdoc]
    exact Tcp.acceptResponse_eq_ok.mpr rfl

theorem frameMembers_of_answers (h : FrameAnswers serde uuid (.object members) requestId) :
    FrameMembers uuid requestId members := by
  obtain ⟨hshape, ⟨text, hid, hparse⟩, hstatus, ⟨payload, hpayload, hnull, -⟩, herror⟩ := h
  obtain ⟨hknown, hnodup⟩ := DerivedStruct.isShape_object hshape
  exact {
    known := hknown
    nodup := hnodup
    request_id := ⟨text, Json.mem_of_lookup hid, hparse⟩
    status := Json.mem_of_lookup hstatus
    payload := ⟨payload, Json.mem_of_lookup hpayload, hnull⟩
    error := fun v hv => herror v (Json.lookup_of_mem hnodup hv) }

/-- An array is read as a response exactly if it is the one of its values. -/
theorem frameAnswers_array_iff {items : List Json} :
    FrameAnswers serde uuid (.array items) requestId ↔
      FrameArray serde uuid requestId (.array items) := by
  constructor
  · rintro ⟨hshape, ⟨text, hid, hparse⟩, hstatus, ⟨payload, hpayload, hnull, hvalue⟩, herror⟩
    have hlength : items.length = 4 := of_decide_eq_true hshape
    obtain ⟨a, b, c, d, rfl⟩ := List.length_eq_four.mp hlength
    have hfields : a = .string text ∧ b = .string "ok" ∧ c = payload ∧ d = .null :=
      ⟨Option.some.inj hid, Option.some.inj hstatus, Option.some.inj hpayload, herror d rfl⟩
    obtain ⟨rfl, rfl, rfl, rfl⟩ := hfields
    exact ⟨text, c, rfl, hparse, hnull, hvalue⟩
  · rintro ⟨text, payload, hitems, hparse, hnull, hvalue⟩
    obtain rfl := Json.array.inj hitems
    exact {
      shape := rfl
      request_id := ⟨text, rfl, hparse⟩
      status := rfl
      payload := ⟨payload, rfl, hnull, hvalue⟩
      error := fun v hv => (Option.some.inj hv).symm }

theorem strictFrame_iff (frame : List UInt8) (requestId : Uuid) :
    StrictFrame serde uuid frame requestId ↔
      ¬ (frame.length ≤ Tcp.maxResponseBytes ∧
        ∃ doc, serde.parse frame = some doc ∧ FrameArray serde uuid requestId doc) := by
  constructor
  · rintro hstrict ⟨hlength, doc, hparse, harray⟩
    obtain ⟨text, payload, rfl, hvalues⟩ := harray
    have hanswers : FrameAnswers serde uuid (.array _) requestId :=
      frameAnswers_array_iff.mpr ⟨text, payload, rfl, hvalues⟩
    obtain ⟨v, hv⟩ := exists_receiveResponse_iff.mpr ⟨hlength, _, hparse, hanswers⟩
    obtain ⟨doc', hparse', members, rfl, -⟩ := hstrict v hv
    rw [hparse] at hparse'
    cases hparse'
  · intro hnone v hv
    obtain ⟨hlength, doc, hparse, hanswers⟩ := exists_receiveResponse_iff.mp ⟨v, hv⟩
    cases doc with
    | object members => exact ⟨_, hparse, members, rfl, frameMembers_of_answers hanswers⟩
    | array items =>
      exact absurd ⟨hlength, _, hparse, frameAnswers_array_iff.mp hanswers⟩ hnone
    | null | bool _ | number _ | string _ => cases hanswers.shape

/-! ## Envelopes -/

/-- What the two avenues accept is a response as it should be, unless it is the
    array of the values of one. -/
theorem envelopes_strict_iff (serde : SerdeJson) (uuid : UuidCrate) (bytes : List UInt8) (id : Uuid) :
    (StrictStatus serde uuid bytes id ↔
      ¬ ∃ doc, serde.parse bytes = some doc ∧ StatusArray uuid id doc) ∧
    (StrictFrame serde uuid bytes id ↔
      ¬ (bytes.length ≤ Tcp.maxResponseBytes ∧
        ∃ doc, serde.parse bytes = some doc ∧ FrameArray serde uuid id doc)) :=
  ⟨strictStatus_iff bytes id, strictFrame_iff bytes id⟩

/-- Both arrays are accepted. -/
theorem not_envelopes_strict :
    ¬ StrictStatus .compact .hyphenated (Utf8.encode
      ("[\"apme.async-status-response.v1\",\"00000000-0000-0000-0000-000000000001\"," ++
        "\"ok\",\"apme-api\",true]" : String)) 1 ∧
    ¬ StrictFrame .compact .hyphenated (Utf8.encode
      "[\"00000000-0000-0000-0000-000000000001\",\"ok\",[],null]") 1 := by
  constructor
  · rw [strictStatus_iff, not_not]
    exact ⟨_, by decide +kernel, "00000000-0000-0000-0000-000000000001", true, rfl, by decide +kernel⟩
  · rw [strictFrame_iff, not_not]
    exact ⟨by decide +kernel, _, by decide +kernel, "00000000-0000-0000-0000-000000000001",
      .array [], rfl, by decide +kernel, by simp, rfl⟩

end DataPlane
