-- SUMMARY: Status responses of the JetStream avenue: the struct they are read as, and the checks on it.
import ApmeWebMash.Base.DerivedStruct
import ApmeWebMash.Crates

/-! # The JetStream avenue

The part of the module `data_plane::nats` that looks at responses. A response is
found under a subject that its operation names, and its payload is checked
against that operation again. -/

namespace DataPlane.Nats

def responseSchema : Str := "apme.async-status-response.v1"

/-- `StatusResponse`. -/
structure StatusResponse where
  schema : Str
  operationId : Uuid
  status : Str
  service : Str
  databaseReady : Bool
deriving DecidableEq

/-- The errors of `decode_response`: the one of `serde_json`, and its own. -/
inductive TransportError where
  | json
  | invalidData (message : Str)
deriving DecidableEq

/-- The fields of `StatusResponse`, in the order of their declaration. -/
def statusFields : List Str := ["schema", "operation_id", "status", "service", "database_ready"]

/-- What `decode_response` returns; a `Map` keeps its keys sorted. -/
def statusValue (response : StatusResponse) : Json :=
  .object [
    ("databaseReady", .bool response.databaseReady),
    ("mode", .string "durable_jetstream"),
    ("service", .string response.service)]

section
variable (serde : SerdeJson) (uuid : UuidCrate)

/-- `StatusResponse` of a document. -/
def StatusResponse.ofJson (doc : Json) : Option StatusResponse :=
  if DerivedStruct.isShape statusFields doc then do
    let schema ← (← DerivedStruct.field statusFields doc "schema").asStr
    let operationId ←
      ((← DerivedStruct.field statusFields doc "operation_id").asStr).bind uuid.parse
    let status ← (← DerivedStruct.field statusFields doc "status").asStr
    let service ← (← DerivedStruct.field statusFields doc "service").asStr
    let databaseReady ← (← DerivedStruct.field statusFields doc "database_ready").asBool
    some ⟨schema, operationId, status, service, databaseReady⟩
  else none

/-- `serde_json::from_slice::<StatusResponse>`, up to the error. -/
def parseResponse (payload : List UInt8) : Option StatusResponse :=
  (serde.parse payload).bind (StatusResponse.ofJson uuid)

/-- `decode_response`. -/
def decodeResponse (payload : List UInt8) (expectedOperationId : Uuid) :
    Except TransportError Json :=
  match parseResponse serde uuid payload with
  | none => .error .json
  | some response =>
    if response.schema ≠ responseSchema ∨ response.operationId ≠ expectedOperationId ∨
        response.status ≠ "ok" ∨ response.service ≠ "apme-api" then
      .error (.invalidData "status response correlation mismatch")
    else .ok (statusValue response)

end

/-! ## Accepted responses -/

/-- The fields of a response that is accepted. -/
def acceptedFields (operationId : Str) (databaseReady : Bool) : List (Str × Json) := [
  ("schema", .string responseSchema),
  ("operation_id", .string operationId),
  ("status", .string "ok"),
  ("service", .string "apme-api"),
  ("database_ready", .bool databaseReady)]

theorem acceptedFields_names (operationId : Str) (databaseReady : Bool) :
    (acceptedFields operationId databaseReady).map Prod.fst = statusFields := rfl

theorem nodup_statusFields : statusFields.Nodup := by decide

/-- The document is read as a response to this operation. -/
def Answers (uuid : UuidCrate) (doc : Json) (operationId : Uuid) : Prop :=
  DerivedStruct.isShape statusFields doc ∧ ∃ text databaseReady,
    uuid.parse text = some operationId ∧
    DerivedStruct.HasFields statusFields doc (acceptedFields text databaseReady)

variable {serde : SerdeJson} {uuid : UuidCrate} {payload : List UInt8} {operationId : Uuid}

theorem ofJson_eq_some {doc : Json} {databaseReady : Bool} :
    StatusResponse.ofJson uuid doc =
        some ⟨responseSchema, operationId, "ok", "apme-api", databaseReady⟩ ↔
      DerivedStruct.isShape statusFields doc ∧ ∃ text, uuid.parse text = some operationId ∧
        DerivedStruct.HasFields statusFields doc (acceptedFields text databaseReady) := by
  rw [StatusResponse.ofJson]
  split
  · rename_i hshape
    rw [and_iff_right hshape]
    simp only [DerivedStruct.HasFields, acceptedFields, List.forall_mem_cons, Option.bind_eq_bind,
      Option.bind_eq_some_iff, Option.some.injEq, StatusResponse.mk.injEq, Json.asStr_eq_some,
      Json.asBool_eq_some]
    constructor
    · rintro ⟨_, hschema, _, rfl, _, hid, _, ⟨text, rfl, hparse⟩, _, hstatus, _, rfl, _, hservice, _,
        rfl, _, hready, _, rfl, rfl, rfl, rfl, rfl, rfl⟩
      exact ⟨text, hparse, hschema, hid, hstatus, hservice, hready, List.forall_mem_nil _⟩
    · rintro ⟨text, hparse, hschema, hid, hstatus, hservice, hready, -⟩
      exact ⟨_, hschema, _, rfl, _, hid, _, ⟨text, rfl, hparse⟩, _, hstatus, _, rfl, _, hservice, _,
        rfl, _, hready, _, rfl, rfl, rfl, rfl, rfl, rfl⟩
  · rename_i hshape
    exact iff_of_false (fun h => by cases h) fun h => hshape h.1

/-- A payload is accepted exactly if its document is read as a response to the
    operation. -/
theorem exists_decodeResponse_iff :
    (∃ v, decodeResponse serde uuid payload operationId = .ok v) ↔
      ∃ doc, serde.parse payload = some doc ∧ Answers uuid doc operationId := by
  rw [decodeResponse]
  constructor
  · rintro ⟨v, h⟩
    split at h
    · cases h
    · rename_i response hparse
      split at h
      · cases h
      · rename_i hchecks
        obtain ⟨schema, id, status, service, databaseReady⟩ := response
        simp only [not_or, not_not] at hchecks
        obtain ⟨rfl, rfl, rfl, rfl⟩ := hchecks
        obtain ⟨doc, hdoc, hresponse⟩ := Option.bind_eq_some_iff.mp hparse
        obtain ⟨hshape, text, htext, hfields⟩ := ofJson_eq_some.mp hresponse
        exact ⟨doc, hdoc, hshape, text, databaseReady, htext, hfields⟩
  · rintro ⟨doc, hdoc, hshape, text, databaseReady, htext, hfields⟩
    have hresponse := ofJson_eq_some.mpr ⟨hshape, text, htext, hfields⟩
    have hparse : parseResponse serde uuid payload =
        some ⟨responseSchema, operationId, "ok", "apme-api", databaseReady⟩ := by
      rw [parseResponse, hdoc, Option.bind_some, hresponse]
    rw [hparse]
    exact ⟨_, if_neg (by simp)⟩

end DataPlane.Nats
