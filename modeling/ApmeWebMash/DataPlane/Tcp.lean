-- SUMMARY: The persistent mTLS channel: request and response frames, and the steps of serialised `cases` calls.
import ApmeWebMash.Base.DerivedStruct
import ApmeWebMash.Base.Run
import ApmeWebMash.Crates

/-! # The TCP avenue

The module `data_plane::tcp`. A `cases` call validates its token, sends one
request frame and takes one frame from the stream. The mutex in `AppState` lets
one call at a time use the channel, but a call that gives up between its send
and its receive leaves the channel to the next one with its response still to
come. So the channel is a state machine, and its state outlives every call. -/

namespace DataPlane.Tcp

def maxRequestBytes : Nat := 20 * 1024
def maxResponseBytes : Nat := 256 * 1024

/-- The `io::Error` of a call, by kind. -/
inductive Error where
  | invalidData (message : Str)
  | timedOut (message : Str)
  | other
  | transport
deriving DecidableEq

/-- The arguments of a `cases` call. -/
structure Call where
  requestId : Uuid
  tenantId : Uuid
  bearerToken : Str
deriving DecidableEq

/-! ## Request frames -/

/-- `validate_token`. -/
def validateToken (value : Str) : Except Error Unit :=
  if value = [] || Str.len value > 16 * 1024 || value.any Str.isWhitespace || value.any Str.isControl
  then .error (.invalidData "invalid user token")
  else .ok ()

section
variable (serde : SerdeJson) (uuid : UuidCrate)

/-- `FrameRequest`, as it is serialized. -/
def frameRequest (call : Call) : Json :=
  .object [
    ("request_id", .string (uuid.display call.requestId)),
    ("tenant_id", .string (uuid.display call.tenantId)),
    ("bearer_token", .string call.bearerToken),
    ("operation", .string "list_cases")]

/-- What `cases` does before it sends: the payload of the request frame. -/
def requestPayload (call : Call) : Except Error (List UInt8) := do
  validateToken call.bearerToken
  match serde.toVec (frameRequest uuid call) with
  | none => .error .other
  | some payload =>
    if payload = [] ∨ payload.length > maxRequestBytes then
      .error (.invalidData "invalid request frame length")
    else .ok payload

/-! ## Response frames -/

/-- `FrameResponse`. -/
structure FrameResponse where
  requestId : Uuid
  status : Str
  payload : Option Json
  error : Option Str
deriving DecidableEq

/-- The fields of `FrameResponse`, in the order of their declaration. -/
def responseFields : List Str := ["request_id", "status", "payload", "error"]

/-- `Option<T>`: absent and `null` are `None`. -/
def optionalField {α : Type} (read : Json → Option α) : Option Json → Option (Option α)
  | none => some none
  | some .null => some none
  | some v => (read v).map some

/-- `FrameResponse` of a document. -/
def FrameResponse.ofJson (doc : Json) : Option FrameResponse :=
  if DerivedStruct.isShape responseFields doc then do
    let requestId ←
      ((← DerivedStruct.field responseFields doc "request_id").asStr).bind uuid.parse
    let status ← (← DerivedStruct.field responseFields doc "status").asStr
    let payload ← optionalField serde.value (DerivedStruct.field responseFields doc "payload")
    let error ← optionalField Json.asStr (DerivedStruct.field responseFields doc "error")
    some ⟨requestId, status, payload, error⟩
  else none

/-- `serde_json::from_slice::<FrameResponse>`, up to the error. -/
def decodeResponse (bytes : List UInt8) : Option FrameResponse :=
  (serde.parse bytes).bind (FrameResponse.ofJson serde uuid)

/-- The checks of `cases` on a response. -/
def acceptResponse (requestId : Uuid) (response : FrameResponse) : Except Error Json :=
  if response.requestId ≠ requestId ∨ response.status ≠ "ok" ∨ response.error.isSome then
    .error (.invalidData "mTLS cases response rejected")
  else
    match response.payload with
    | some payload => .ok payload
    | none => .error (.invalidData "mTLS cases response omitted payload")

/-- What the framed stream yields next: a frame, an error, or its end. -/
inductive Arrival where
  | frame (bytes : List UInt8)
  | failure
  | closed
deriving DecidableEq

/-- What `cases` makes of the next arrival. The codec refuses long frames. -/
def receiveResponse (requestId : Uuid) : Arrival → Except Error Json
  | .frame bytes =>
    if bytes.length > maxResponseBytes then .error .transport
    else
      match decodeResponse serde uuid bytes with
      | none => .error .other
      | some response => acceptResponse requestId response
  | .failure => .error .transport
  | .closed => .error (.invalidData "mTLS API closed connection")

/-! ## The channel -/

/-- `Channel` behind its mutex: the arrivals that no call has taken, and the call
    that holds the lock and waits for its response. -/
structure Channel where
  inbound : List Arrival
  holder : Option Call
deriving DecidableEq

/-- A channel that has just been connected. -/
def Channel.connected : Channel := ⟨[], none⟩

/-- What happens on a channel. -/
inductive Label where
  | rejected (call : Call) (error : Error)
  | unsent (call : Call)
  | sent (call : Call) (payload : List UInt8)
  | delivered (arrival : Arrival)
  | returned (call : Call) (result : Except Error Json)
  | timedOut (call : Call)
  | dropped (call : Call)

/-- The steps of a channel. Any number of calls compete for the lock; a call that
    does not reach its receive (`rejected`, `unsent`) releases it at once. The
    peer may deliver anything at any time. The clock of `timeout` is looked at
    only when the stream has nothing to yield. -/
inductive Step : Channel → Label → Channel → Prop where
  | rejected {inbound : List Arrival} {call : Call} {error : Error} :
    requestPayload serde uuid call = .error error →
    Step ⟨inbound, none⟩ (.rejected call error) ⟨inbound, none⟩
  | unsent {inbound : List Arrival} {call : Call} {payload : List UInt8} :
    requestPayload serde uuid call = .ok payload →
    Step ⟨inbound, none⟩ (.unsent call) ⟨inbound, none⟩
  | sent {inbound : List Arrival} {call : Call} {payload : List UInt8} :
    requestPayload serde uuid call = .ok payload →
    Step ⟨inbound, none⟩ (.sent call payload) ⟨inbound, some call⟩
  | delivered {inbound : List Arrival} {holder : Option Call} {arrival : Arrival} :
    Step ⟨inbound, holder⟩ (.delivered arrival) ⟨inbound ++ [arrival], holder⟩
  | returned {inbound : List Arrival} {call : Call} {arrival : Arrival} :
    Step ⟨arrival :: inbound, some call⟩
      (.returned call (receiveResponse serde uuid call.requestId arrival)) ⟨inbound, none⟩
  | timedOut {call : Call} : Step ⟨[], some call⟩ (.timedOut call) ⟨[], none⟩
  | dropped {inbound : List Arrival} {call : Call} :
    Step ⟨inbound, some call⟩ (.dropped call) ⟨inbound, none⟩

end

/-! ## What a response says -/

/-- The frame is an `ok` response to `requestId` with a payload and no error. -/
def Carries (serde : SerdeJson) (uuid : UuidCrate) (frame : List UInt8) (requestId : Uuid)
    (v : Json) : Prop :=
  ∃ doc, serde.parse frame = some doc ∧
    (∃ text, DerivedStruct.field responseFields doc "request_id" = some (.string text) ∧
      uuid.parse text = some requestId) ∧
    DerivedStruct.field responseFields doc "status" = some (.string "ok") ∧
    (DerivedStruct.field responseFields doc "error" = none ∨
      DerivedStruct.field responseFields doc "error" = some .null) ∧
    ∃ payload, DerivedStruct.field responseFields doc "payload" = some payload ∧
      payload ≠ .null ∧ serde.value payload = some v

variable {serde : SerdeJson} {uuid : UuidCrate}

theorem acceptResponse_eq_ok {requestId : Uuid} {response : FrameResponse} {v : Json} :
    acceptResponse requestId response = .ok v ↔ response = ⟨requestId, "ok", some v, none⟩ := by
  obtain ⟨id, status, payload, error⟩ := response
  constructor
  · intro h
    rw [acceptResponse] at h
    split at h
    · cases h
    · rename_i hchecks
      simp only [not_or, not_not, Bool.not_eq_true, Option.isSome_eq_false_iff,
        Option.isNone_iff_eq_none] at hchecks
      obtain ⟨rfl, rfl, rfl⟩ := hchecks
      split at h
      · rename_i hpayload
        rw [Except.ok.inj h] at hpayload
        rw [show payload = some v from hpayload]
      · cases h
  · intro h
    rw [h, acceptResponse, if_neg (by simp)]

theorem optionalField_eq_none {α : Type} {read : Json → Option α} {field : Option Json}
    (h : optionalField read field = some none) : field = none ∨ field = some .null := by
  match field with
  | none => exact .inl rfl
  | some .null => exact .inr rfl
  | some (.bool _) | some (.number _) | some (.string _) | some (.array _) | some (.object _) =>
    simp [optionalField] at h

theorem optionalField_eq_some {α : Type} {read : Json → Option α} {field : Option Json} {a : α}
    (h : optionalField read field = some (some a)) :
    ∃ v, field = some v ∧ v ≠ .null ∧ read v = some a := by
  match field with
  | none | some .null => simp [optionalField] at h
  | some (.bool b) | some (.number b) | some (.string b) | some (.array b) | some (.object b) =>
    exact ⟨_, rfl, by simp, by simpa [optionalField] using h⟩

/-- A call returns a value only for a frame that carries it. -/
theorem receiveResponse_eq_ok {requestId : Uuid} {arrival : Arrival} {v : Json}
    (h : receiveResponse serde uuid requestId arrival = .ok v) :
    ∃ frame, arrival = .frame frame ∧ Carries serde uuid frame requestId v := by
  cases arrival with
  | failure | closed => cases h
  | frame bytes =>
    rw [receiveResponse] at h
    split at h
    · cases h
    · split at h
      · cases h
      · rename_i response hdecode
        rw [acceptResponse_eq_ok.mp h] at hdecode
        obtain ⟨doc, hparse, hdoc⟩ := Option.bind_eq_some_iff.mp hdecode
        rw [FrameResponse.ofJson] at hdoc
        split at hdoc
        · simp only [Option.bind_eq_bind, Option.bind_eq_some_iff, Option.some.injEq,
            FrameResponse.mk.injEq, Json.asStr_eq_some] at hdoc
          obtain ⟨_, hid, _, ⟨text, rfl, huuid⟩, _, hstatus, _, rfl, _, hpayload, _, herror,
            rfl, rfl, rfl, rfl⟩ := hdoc
          exact ⟨bytes, rfl, doc, hparse, ⟨text, hid, huuid⟩, hstatus,
            optionalField_eq_none herror, optionalField_eq_some hpayload⟩
        · cases hdoc

/-! ## Isolation -/

/-- Everything in the stream was delivered, and the holder has sent its frame. -/
structure ChannelInvariant (labels : List Label) (ch : Channel) : Prop where
  inbound_delivered : ∀ arrival ∈ ch.inbound, .delivered arrival ∈ labels
  holder_sent : ∀ call, ch.holder = some call → ∃ payload, .sent call payload ∈ labels

theorem ChannelInvariant.step {labels : List Label} {ch ch' : Channel} {label : Label}
    (hinv : ChannelInvariant labels ch) (h : Step serde uuid ch label ch') :
    ChannelInvariant (labels ++ [label]) ch' := by
  have hold : ∀ {l : Label}, l ∈ labels → l ∈ labels ++ [label] := List.mem_append_left _
  have hnew : label ∈ labels ++ [label] := List.mem_append_right _ (List.mem_singleton_self label)
  cases h with
  | rejected _ | unsent _ | timedOut | dropped =>
    exact ⟨fun a ha => hold (hinv.inbound_delivered a ha), fun _ h => by cases h⟩
  | sent _ =>
    refine ⟨fun a ha => hold (hinv.inbound_delivered a ha), fun c hc => ?_⟩
    obtain rfl := Option.some.inj hc
    exact ⟨_, hnew⟩
  | delivered =>
    refine ⟨fun a ha => ?_, fun c hc => ?_⟩
    · rcases List.mem_append.mp ha with ha | ha
      · exact hold (hinv.inbound_delivered a ha)
      · exact List.mem_singleton.mp ha ▸ hnew
    · obtain ⟨payload, hsent⟩ := hinv.holder_sent c hc
      exact ⟨payload, hold hsent⟩
  | returned =>
    exact ⟨fun a ha => hold (hinv.inbound_delivered a (List.mem_cons_of_mem _ ha)),
      fun _ h => by cases h⟩

theorem channelInvariant_of_run {labels : List Label} {ch : Channel}
    (h : Runs (Step serde uuid) .connected labels ch) : ChannelInvariant labels ch := by
  refine h.invariant (I := ChannelInvariant) ?_ fun _ _ _ _ hinv hstep => hinv.step hstep
  exact ⟨fun _ ha => (List.not_mem_nil ha).elim, fun _ hc => by cases hc⟩

/-- A call returns a value only from a frame that was delivered before and is an
    `ok` response to its own request. So when the peer puts under the identifier
    of a request only data of the tenant it names, a call returns only data of
    the tenant it asked for. -/
theorem cases_isolated {pre post : List Label} {call : Call} {v : Json} {ch : Channel}
    (hrun : Runs (Step serde uuid) .connected (pre ++ .returned call (.ok v) :: post) ch) :
    (∃ frame, .delivered (.frame frame) ∈ pre ∧ Carries serde uuid frame call.requestId v) ∧
    ∀ ofTenant : Uuid → Json → Prop,
      (∀ frame w asked payload, .delivered (.frame frame) ∈ pre → .sent asked payload ∈ pre →
        Carries serde uuid frame asked.requestId w → ofTenant asked.tenantId w) →
      ofTenant call.tenantId v := by
  obtain ⟨s, s', hpre, hstep, -⟩ := hrun.exists_step
  have hinv := channelInvariant_of_run hpre
  generalize hresult : (Except.ok v : Except Error Json) = result at hstep
  cases hstep with
  | returned =>
    obtain ⟨frame, rfl, hcarries⟩ := receiveResponse_eq_ok hresult.symm
    have hdelivered := hinv.inbound_delivered _ List.mem_cons_self
    obtain ⟨payload, hsent⟩ := hinv.holder_sent call rfl
    exact ⟨⟨frame, hdelivered, hcarries⟩, fun _ hpeer =>
      hpeer frame v call payload hdelivered hsent hcarries⟩

/-! ## A run -/

/-- A call and the frame that answers it with an empty object. -/
def sampleCall (n : Nat) : Call := ⟨BitVec.ofNat 128 n, BitVec.ofNat 128 n, "token"⟩

def sampleFrame (n : Nat) : List UInt8 :=
  Utf8.encode (Json.render (.object [
    ("request_id", .string (UuidCrate.hyphenated.display (BitVec.ofNat 128 n))),
    ("status", .string "ok"),
    ("payload", .object []),
    ("error", .null)]))

/-- The document of a sample frame. -/
def sampleResponse (n : Nat) : Json :=
  .object [
    ("request_id", .string (UuidCrate.hyphenated.display (BitVec.ofNat 128 n))),
    ("status", .string "ok"),
    ("payload", .object []),
    ("error", .null)]

theorem length_sampleFrame_le : ∀ n : Fin 3, (sampleFrame n).length ≤ maxResponseBytes := by
  decide +kernel

theorem parse_sampleFrame (n : Nat) :
    SerdeJson.compact.parse (sampleFrame n) = some (sampleResponse n) := by
  have hframe : sampleFrame n = Utf8.encode (Json.render (sampleResponse n)) := rfl
  have hwell : (sampleResponse n).WellFormed := by
    simp [sampleResponse, Json.WellFormed, Json.WellFormedMembers]
  simp [hframe, SerdeJson.compact, Utf8.decode_encode, Json.parse_render hwell]

theorem decodeResponse_sampleFrame (n : Fin 3) :
    decodeResponse .compact .hyphenated (sampleFrame n) =
      some ⟨(sampleCall n).requestId, "ok", some (.object []), none⟩ := by
  have hfields : ∀ n : Fin 3, FrameResponse.ofJson .compact .hyphenated (sampleResponse n) =
      some ⟨(sampleCall n).requestId, "ok", some (.object []), none⟩ := by decide +kernel
  rw [decodeResponse, parse_sampleFrame, Option.bind_some]
  exact hfields n

theorem exists_requestPayload_sample (n : Fin 3) :
    ∃ payload, requestPayload .compact .hyphenated (sampleCall n) = .ok payload := by
  have hall : ∀ n : Fin 3, (requestPayload .compact .hyphenated (sampleCall n)).isOk := by
    decide +kernel
  have hok := hall n
  cases hpayload : requestPayload .compact .hyphenated (sampleCall n) with
  | ok payload => exact ⟨payload, rfl⟩
  | error e =>
    rw [hpayload] at hok
    cases hok

/-- A sample frame carries nothing for another request. -/
theorem carries_sampleFrame {n : Fin 3} {requestId : Uuid} {v : Json}
    (h : Carries .compact .hyphenated (sampleFrame n) requestId v) :
    requestId = (sampleCall n).requestId ∧ v = .object [] := by
  obtain ⟨doc, hparse, ⟨text, hid, huuid⟩, -, -, payload, hpayload, -, hvalue⟩ := h
  rw [parse_sampleFrame] at hparse
  obtain rfl := Option.some.inj hparse
  obtain rfl := Json.string.inj (Option.some.inj hid)
  obtain rfl := Option.some.inj hpayload
  rw [UuidCrate.hyphenated_parsesDisplayed] at huuid
  exact ⟨(Option.some.inj huuid).symm, (Option.some.inj hvalue).symm⟩

/-- The data of a tenant: what the sample frames say to its calls. -/
def SampleData (tenantId : Uuid) (v : Json) : Prop :=
  ∃ n : Fin 3, tenantId = (sampleCall n).tenantId ∧
    Carries .compact .hyphenated (sampleFrame n) (sampleCall n).requestId v

/-- The call of another tenant is dropped, and its response comes late. -/
theorem cases_isolated_sample :
    (∃ frame, Carries .compact .hyphenated frame (sampleCall 2).requestId (.object [])) ∧
    SampleData (sampleCall 2).tenantId (.object []) := by
  obtain ⟨payload₁, hpayload₁⟩ := exists_requestPayload_sample 1
  obtain ⟨payload₂, hpayload₂⟩ := exists_requestPayload_sample 2
  have hresult : receiveResponse .compact .hyphenated (sampleCall 2).requestId
      (.frame (sampleFrame 2)) = .ok (.object []) := by
    have hlength : (sampleFrame 2).length ≤ maxResponseBytes := length_sampleFrame_le 2
    have hdecode : decodeResponse .compact .hyphenated (sampleFrame 2) =
        some ⟨(sampleCall 2).requestId, "ok", some (.object []), none⟩ :=
      decodeResponse_sampleFrame 2
    rw [receiveResponse, if_neg (Nat.not_lt.mpr hlength), hdecode]
    rfl
  have hreturned : Step .compact .hyphenated ⟨[.frame (sampleFrame 2)], some (sampleCall 2)⟩
      (.returned (sampleCall 2) (.ok (.object []))) ⟨[], none⟩ := hresult ▸ .returned
  have hrun : Runs (Step .compact .hyphenated) .connected
      ([.sent (sampleCall 1) payload₁, .dropped (sampleCall 1), .sent (sampleCall 2) payload₂,
        .delivered (.frame (sampleFrame 2))] ++
        [.returned (sampleCall 2) (.ok (.object [])), .delivered (.frame (sampleFrame 1))])
      ⟨[.frame (sampleFrame 1)], none⟩ :=
    (((((Runs.nil.snoc (.sent hpayload₁)).snoc .dropped).snoc (.sent hpayload₂)).snoc
      .delivered).snoc hreturned).snoc .delivered
  obtain ⟨⟨frame, -, hcarries⟩, htenant⟩ := cases_isolated hrun
  refine ⟨⟨frame, hcarries⟩, htenant SampleData fun frame w asked payload hframe hasked h => ?_⟩
  obtain rfl : frame = sampleFrame 2 := by simpa using hframe
  have hcalls : asked = sampleCall 1 ∨ asked = sampleCall 2 := by
    simp only [List.mem_cons, Label.sent.injEq, reduceCtorEq, false_or, or_false,
      List.not_mem_nil] at hasked
    exact hasked.imp And.left And.left
  obtain ⟨hid, -⟩ := @carries_sampleFrame 2 _ _ h
  rcases hcalls with rfl | rfl
  · exact absurd hid (by decide)
  · exact ⟨2, rfl, h⟩

end DataPlane.Tcp
