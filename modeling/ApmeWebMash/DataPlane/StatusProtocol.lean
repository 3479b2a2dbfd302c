-- SUMMARY: The JetStream avenue as a protocol: any number of `status` calls, the two streams of the broker, and whoever answers.
import Mathlib.Data.List.Perm.Subperm
import ApmeWebMash.Base.Run
import ApmeWebMash.Base.JsonRoundTrip
import ApmeWebMash.DataPlane.Nats

/-! # Status calls

The other half of the module `data_plane::nats`. A `status` call publishes one
request and then looks every 100 ms for a message under a subject of its own,
until it finds one or ten seconds are over. Calls run beside each other, and
anyone with access to the broker may publish responses at any time and under any
subject. A call can be dropped wherever it waits. -/

namespace DataPlane.Nats

def requestSubject : Str := "apme.web_api.outbox.status"
def responseSubjectPrefix : Str := "apme.web_api.inbox.status"
def requestSchema : Str := "apme.async-status-request.v1"
def maxSignalBytes : Nat := 4 * 1024
def maxResponseBytes : Nat := 64 * 1024

/-- `ASYNC_TIMEOUT`, in nanoseconds. -/
def asyncTimeout : Nat := 10 * 10 ^ 9

/-- The pause between two looks, in nanoseconds. -/
def pollInterval : Nat := 100 * 10 ^ 6

theorem asyncTimeout_eq : asyncTimeout = 10000000000 := by decide

theorem pollInterval_eq : pollInterval = 100000000 := by decide

/-! ## One call -/

/-- Why a call fails: on its own or with an error of `decode_response`, because
    the request is not acknowledged, or at the deadline. -/
inductive StatusError where
  | transport (error : TransportError)
  | publish
  | timedOut (message : Str)
deriving DecidableEq

/-- `PublishMessage`, with the subject that it is sent to. -/
structure Published where
  subject : Str
  messageId : Str
  payload : List UInt8
deriving DecidableEq

section
variable (serde : SerdeJson) (uuid : UuidCrate)

/-- `StatusRequest`, as it is serialized. -/
def statusRequest (operationId : Uuid) : Json :=
  .object [("schema", .string requestSchema), ("operation_id", .string (uuid.display operationId))]

def messageId (operationId : Uuid) : Str :=
  ("apme-status-request-" : Str) ++ uuid.display operationId

/-- The subject that a call looks at. -/
def expectedSubject (operationId : Uuid) : Str :=
  responseSubjectPrefix ++ '.' :: uuid.display operationId

/-- What `status` does before it publishes. -/
def signal (operationId : Uuid) : Except StatusError Published :=
  match serde.toVec (statusRequest uuid operationId) with
  | none => .error (.transport .json)
  | some payload =>
    if payload.length > maxSignalBytes then
      .error (.transport (.invalidData "status signal too large"))
    else .ok ⟨requestSubject, messageId uuid operationId, payload⟩

/-- What `status` makes of a message that it has found. -/
def receive (payload : List UInt8) (operationId : Uuid) : Except StatusError Json :=
  if payload.length > maxResponseBytes then
    .error (.transport (.invalidData "status response too large"))
  else (decodeResponse serde uuid payload operationId).mapError .transport

end

/-- Where a call is: before it sends its request, before the acknowledgement, at
    a look, in the pause before the next one, or at its end. -/
inductive StatusPhase where
  | publishing
  | acknowledging
  | polling (started : Nat)
  | sleeping (started wake : Nat)
  | done (result : Except StatusError Json)
  | dropped

/-- What a look without a message leads to. -/
def missed (now started : Nat) : StatusPhase :=
  if now - started ≥ asyncTimeout then .done (.error (.timedOut "status response timed out"))
  else .sleeping started (now + pollInterval)

structure StatusCall where
  operationId : Uuid
  phase : StatusPhase

/-! ## The protocol -/

/-- The calls, the requests on their way to the broker, and what the broker holds:
    the requests in its request stream, and the responses that its response
    stream retains. The request stream is a work queue, which a request leaves
    when it is consumed (or removed by a limit of the stream); `consumed` are
    those that have left it. -/
structure System where
  now : Nat
  inFlight : List Published
  requests : List Published
  consumed : List Published
  responses : List (Str × List UInt8)
  calls : List StatusCall

/-- Nothing has happened yet. -/
def System.initial (now : Nat) : System := ⟨now, [], [], [], [], []⟩

/-- The requests that the stream has stored, still in it or not. -/
def System.stored (s : System) : List Published := s.requests ++ s.consumed

/-- What a call does: it sends its request, gets the acknowledgement or an error
    instead, looks for a message, goes on after a pause, or is dropped. -/
inductive CallAct where
  | send
  | ack
  | fail
  | poll
  | wake
  | drop
deriving DecidableEq

/-- What happens: a call begins or goes on; a request gets to the broker or is
    lost; a request leaves the stream; someone publishes a response; a response
    is not retained any longer; time passes. -/
inductive StatusLabel where
  | call (operationId : Uuid)
  | act (i : Nat) (act : CallAct)
  | deliver (stored : Bool)
  | lose
  | consume
  | respond (subject : Str) (payload : List UInt8)
  | expire
  | wait (time : Nat)
deriving DecidableEq

section
variable (serde : SerdeJson) (uuid : UuidCrate)

/-- The phase in which a call begins. -/
def begin (operationId : Uuid) : StatusPhase :=
  match signal serde uuid operationId with
  | .ok _ => .publishing
  | .error error => .done (.error error)

/-- What a call puts on its way to the broker. -/
def sends (operationId : Uuid) : CallAct → List Published
  | .send => (signal serde uuid operationId).toOption.toList
  | _ => []

/-- The steps of one call. It is acknowledged when the stream has stored a request
    under its message id. A look finds a message under its subject, not necessarily the
    last one, since any replica may answer it; and it may find none at any time. -/
inductive CallStep (s : System) (id : Uuid) : StatusPhase → CallAct → StatusPhase → Prop where
  | send : CallStep s id .publishing .send .acknowledging
  | ack {message : Published} : message ∈ s.stored → message.messageId = messageId uuid id →
    CallStep s id .acknowledging .ack (.polling s.now)
  | fail {phase : StatusPhase} : phase = .publishing ∨ phase = .acknowledging →
    CallStep s id phase .fail (.done (.error .publish))
  | found {started : Nat} {payload : List UInt8} :
    (expectedSubject uuid id, payload) ∈ s.responses →
    CallStep s id (.polling started) .poll (.done (receive serde uuid payload id))
  | missed {started : Nat} : CallStep s id (.polling started) .poll (missed s.now started)
  | wake {started wake : Nat} : wake ≤ s.now →
    CallStep s id (.sleeping started wake) .wake (.polling started)
  | drop {phase : StatusPhase} : (∀ result, phase ≠ .done result) → phase ≠ .dropped →
    CallStep s id phase .drop .dropped

/-- The steps of the protocol. A request that gets to the broker is stored unless
    the stream has stored one under the same message id; then it is up to the
    duplicate window of the stream, which does not care whether that one is still
    there. -/
inductive StatusStep : System → StatusLabel → System → Prop where
  | call {s : System} {id : Uuid} :
    StatusStep s (.call id) { s with calls := s.calls ++ [⟨id, begin serde uuid id⟩] }
  | act {s : System} {i : Nat} {id : Uuid} {phase phase' : StatusPhase} {act : CallAct} :
    s.calls[i]? = some ⟨id, phase⟩ → CallStep serde uuid s id phase act phase' →
    StatusStep s (.act i act)
      { s with
        calls := s.calls.set i ⟨id, phase'⟩
        inFlight := s.inFlight ++ sends serde uuid id act }
  | deliver {s : System} {before behind : List Published} {message : Published} {stored : Bool} :
    s.inFlight = before ++ message :: behind →
    -- the stream drops a message whose identifier it has had
    (stored = false → ∃ earlier ∈ s.stored, earlier.messageId = message.messageId) →
    StatusStep s (.deliver stored)
      { s with
        inFlight := before ++ behind
        requests := if stored then s.requests ++ [message] else s.requests }
  | lose {s : System} {before behind : List Published} {message : Published} :
    s.inFlight = before ++ message :: behind →
    StatusStep s .lose { s with inFlight := before ++ behind }
  | consume {s : System} {before behind : List Published} {message : Published} :
    s.requests = before ++ message :: behind →
    StatusStep s .consume
      { s with requests := before ++ behind, consumed := s.consumed ++ [message] }
  | respond {s : System} {subject : Str} {payload : List UInt8} :
    StatusStep s (.respond subject payload)
      { s with responses := s.responses ++ [(subject, payload)] }
  | expire {s : System} {before behind : List (Str × List UInt8)} {response : Str × List UInt8} :
    s.responses = before ++ response :: behind →
    StatusStep s .expire { s with responses := before ++ behind }
  | wait {s : System} {time : Nat} : s.now ≤ time → StatusStep s (.wait time) { s with now := time }

/-- A run of the protocol. -/
def StatusRun (now : Nat) (ls : List StatusLabel) (s : System) : Prop :=
  Runs (StatusStep serde uuid) (.initial now) ls s

end

variable {serde : SerdeJson} {uuid : UuidCrate} {s s' : System} {l : StatusLabel} {now : Nat}
  {ls : List StatusLabel}

/-! ## Calls along a run -/

/-- Only calls that have begun act. -/
theorem lt_of_act (h : StatusRun serde uuid now ls s) {i : Nat} {act : CallAct}
    (hact : .act i act ∈ ls) : i < s.calls.length := by
  refine h.invariant (I := fun ls s => ∀ i act, .act i act ∈ ls → i < s.calls.length)
    (fun i act hact => by cases hact) ?_ i act hact
  intro ls s l s' ih hstep i act hmem
  rcases List.mem_append.mp hmem with hmem | hmem
  · have hlt := ih i act hmem
    cases hstep with
    | call => simpa using Nat.lt_succ_of_lt hlt
    | act => simpa using hlt
    | deliver | lose | consume | respond | expire | wait => exact hlt
  · obtain rfl := List.mem_singleton.mp hmem
    cases hstep with
    | act hget => simpa using (List.getElem?_eq_some_iff.mp hget).1

/-- What holds of a call when it begins, and survives its own steps and those
    around it, holds of every call in every run. -/
theorem calls_invariant {I : List StatusLabel → System → Nat → StatusCall → Prop}
    (hbegin : ∀ ls s s' i id, StatusRun serde uuid now ls s → (∀ act, .act i act ∉ ls) →
      I (ls ++ [.call id]) s' i ⟨id, begin serde uuid id⟩)
    (hother : ∀ ls s s' l i call, StatusRun serde uuid now ls s → StatusStep serde uuid s l s' →
      (∀ act, l ≠ .act i act) → I ls s i call → I (ls ++ [l]) s' i call)
    (hown : ∀ ls s s' i id phase phase' act, StatusRun serde uuid now ls s →
      StatusStep serde uuid s (.act i act) s' → CallStep serde uuid s id phase act phase' →
      I ls s i ⟨id, phase⟩ → I (ls ++ [.act i act]) s' i ⟨id, phase'⟩)
    (h : StatusRun serde uuid now ls s) {i : Nat} {call : StatusCall}
    (hcall : s.calls[i]? = some call) : I ls s i call := by
  induction h generalizing i call with
  | nil => cases hcall
  | @snoc ls s s' l hrun hstep ih =>
    -- a step of the call itself, of another one, or of the broker
    by_cases hl : ∃ act, l = .act i act
    · obtain ⟨act, rfl⟩ := hl
      have hstep' := hstep
      cases hstep with
      | act hget hmove =>
        have hlt := (List.getElem?_eq_some_iff.mp hget).1
        obtain rfl := Option.some.inj ((List.getElem?_set_self hlt).symm.trans hcall)
        exact hown _ _ _ _ _ _ _ _ hrun hstep' hmove (ih hget)
    · have hne : ∀ act, l ≠ .act i act := fun act heq => hl ⟨act, heq⟩
      have hkept : ∀ call', s.calls[i]? = some call' → I (ls ++ [l]) s' i call' :=
        fun call' hget => hother _ _ _ _ _ _ hrun hstep hne (ih hget)
      cases hstep with
      | call =>
        dsimp only at hcall
        by_cases hlt : i < s.calls.length
        · rw [List.getElem?_append_left hlt] at hcall
          exact hkept call hcall
        · have hact : ∀ act, .act i act ∉ ls := fun act hmem => hlt (lt_of_act hrun hmem)
          rw [List.getElem?_append_right (Nat.le_of_not_lt hlt), List.getElem?_singleton] at hcall
          split at hcall
          · obtain rfl := Option.some.inj hcall
            exact hbegin _ _ _ _ _ hrun hact
          · cases hcall
      | @act j _ _ _ act hget hmove =>
        have hij : j ≠ i := fun heq => hne act (heq ▸ rfl)
        dsimp only at hcall
        rw [List.getElem?_set_ne hij] at hcall
        exact hkept call hcall
      | deliver | lose | consume | respond | expire | wait => exact hkept call hcall

/-- The message says which operation is asked about, and nothing else. -/
structure IsRequest (serde : SerdeJson) (uuid : UuidCrate) (id : Uuid) (message : Published) : Prop where
  subject : message.subject = requestSubject
  message_id : message.messageId = messageId uuid id
  payload : serde.toVec (statusRequest uuid id) = some message.payload
  length_le : message.payload.length ≤ maxSignalBytes

theorem signal_eq_ok {id : Uuid} {message : Published} :
    signal serde uuid id = .ok message ↔ IsRequest serde uuid id message := by
  rw [signal]
  constructor
  · intro h
    split at h
    · cases h
    · rename_i payload hpayload
      split at h
      · cases h
      · rename_i hlength
        rw [← Except.ok.inj h]
        exact ⟨rfl, rfl, hpayload, Nat.le_of_not_lt hlength⟩
  · rintro ⟨hsubject, hid, hpayload, hlength⟩
    rw [hpayload]
    dsimp only
    rw [if_neg (Nat.not_lt.mpr hlength), ← hsubject, ← hid]

/-! ## A run with an answer -/

/-- The response of the API to an operation is accepted. -/
theorem receive_response (huuid : uuid.ParsesDisplayed) {payload : List UInt8} {id : Uuid}
    {databaseReady : Bool} (hlength : payload.length ≤ maxResponseBytes)
    (hparse : serde.parse payload =
      some (.object (acceptedFields (uuid.display id) databaseReady))) :
    receive serde uuid payload id =
      .ok (statusValue ⟨responseSchema, id, "ok", "apme-api", databaseReady⟩) := by
  have hnames : ((acceptedFields (uuid.display id) databaseReady).map Prod.fst).Nodup := by
    rw [acceptedFields_names]
    exact nodup_statusFields
  have hshape : DerivedStruct.isShape statusFields
      (.object (acceptedFields (uuid.display id) databaseReady)) := by
    rw [DerivedStruct.isShape, acceptedFields_names]
    decide
  -- all fields are there, each once, with the values that are asked for
  have hresponse : StatusResponse.ofJson uuid
      (.object (acceptedFields (uuid.display id) databaseReady)) =
        some ⟨responseSchema, id, "ok", "apme-api", databaseReady⟩ :=
    ofJson_eq_some.mpr ⟨hshape, uuid.display id, huuid id,
      fun field hfield => Json.lookup_of_mem hnames hfield⟩
  have hread : parseResponse serde uuid payload =
      some ⟨responseSchema, id, "ok", "apme-api", databaseReady⟩ := by
    rw [parseResponse, hparse, Option.bind_some, hresponse]
  have hdecode : decodeResponse serde uuid payload id =
      .ok (statusValue ⟨responseSchema, id, "ok", "apme-api", databaseReady⟩) := by
    rw [decodeResponse, hread]
    exact if_neg (by simp)
  rw [receive, if_neg (Nat.not_lt.mpr hlength), hdecode]
  rfl

/-- The labels of one call that is answered at its first look. -/
def answeredLabels (uuid : UuidCrate) (id : Uuid) (payload : List UInt8) : List StatusLabel := [
  .call id, .act 0 .send, .deliver true, .act 0 .ack, .respond (expectedSubject uuid id) payload,
  .act 0 .poll]

/-- A call whose request is stored and acknowledged. -/
theorem asked_run {id : Uuid} {message : Published} (now : Nat)
    (hsignal : signal serde uuid id = .ok message) :
    StatusRun serde uuid now [.call id, .act 0 .send, .deliver true, .act 0 .ack]
      ⟨now, [], [message], [], [], [⟨id, .polling now⟩]⟩ := by
  have hbegin : begin serde uuid id = .publishing := by rw [begin, hsignal]
  have hsends : sends serde uuid id .send = [message] := by
    rw [sends, hsignal]
    rfl
  have hcall : StatusStep serde uuid (.initial now) (.call id)
      ⟨now, [], [], [], [], [⟨id, .publishing⟩]⟩ := hbegin ▸ .call
  have hsend : StatusStep serde uuid ⟨now, [], [], [], [], [⟨id, .publishing⟩]⟩ (.act 0 .send)
      ⟨now, [message], [], [], [], [⟨id, .acknowledging⟩]⟩ := hsends ▸ .act rfl .send
  have hdeliver : StatusStep serde uuid ⟨now, [message], [], [], [], [⟨id, .acknowledging⟩]⟩
      (.deliver true) ⟨now, [], [message], [], [], [⟨id, .acknowledging⟩]⟩ :=
    @StatusStep.deliver serde uuid ⟨now, [message], [], [], [], [⟨id, .acknowledging⟩]⟩ [] []
      message true rfl (by simp)
  have hack : StatusStep serde uuid ⟨now, [], [message], [], [], [⟨id, .acknowledging⟩]⟩
      (.act 0 .ack) ⟨now, [], [message], [], [], [⟨id, .polling now⟩]⟩ :=
    .act rfl (.ack List.mem_cons_self (signal_eq_ok.mp hsignal).message_id)
  exact (((Runs.nil.snoc hcall).snoc hsend).snoc hdeliver).snoc hack

/-- Where the API answers, there is a run in which the call gets the answer. -/
theorem answered_run {id : Uuid} {message : Published} {payload : List UInt8} {v : Json} (now : Nat)
    (hsignal : signal serde uuid id = .ok message)
    (hreceive : receive serde uuid payload id = .ok v) :
    StatusRun serde uuid now (answeredLabels uuid id payload)
      ⟨now, [], [message], [], [(expectedSubject uuid id, payload)], [⟨id, .done (.ok v)⟩]⟩ := by
  have hpoll : StatusStep serde uuid
      ⟨now, [], [message], [], [(expectedSubject uuid id, payload)], [⟨id, .polling now⟩]⟩
      (.act 0 .poll)
      ⟨now, [], [message], [], [(expectedSubject uuid id, payload)], [⟨id, .done (.ok v)⟩]⟩ :=
    hreceive ▸ .act rfl (.found List.mem_cons_self)
  exact ((asked_run now hsignal).snoc .respond).snoc hpoll

/-- The labels of one call whose request is consumed and never answered. -/
def unansweredLabels (now : Nat) (id : Uuid) : List StatusLabel := [
  .call id, .act 0 .send, .deliver true, .act 0 .ack, .consume, .act 0 .poll,
  .wait (now + asyncTimeout), .act 0 .wake, .act 0 .poll]

/-- Where nobody answers, there is a run in which the call times out. -/
theorem unanswered_run {id : Uuid} {message : Published} (now : Nat)
    (hsignal : signal serde uuid id = .ok message) :
    StatusRun serde uuid now (unansweredLabels now id)
      ⟨now + asyncTimeout, [], [], [message], [],
        [⟨id, .done (.error (.timedOut "status response timed out"))⟩]⟩ := by
  have hconsume : StatusStep serde uuid ⟨now, [], [message], [], [], [⟨id, .polling now⟩]⟩
      .consume ⟨now, [], [], [message], [], [⟨id, .polling now⟩]⟩ :=
    @StatusStep.consume serde uuid ⟨now, [], [message], [], [], [⟨id, .polling now⟩]⟩ [] []
      message rfl
  have hfirst : missed now now = .sleeping now (now + pollInterval) := by
    rw [missed, asyncTimeout_eq, if_neg (by omega)]
  have hlast : missed (now + asyncTimeout) now =
      .done (.error (.timedOut "status response timed out")) := by
    rw [missed, if_pos (by omega)]
  have hlook : StatusStep serde uuid ⟨now, [], [], [message], [], [⟨id, .polling now⟩]⟩
      (.act 0 .poll)
      ⟨now, [], [], [message], [], [⟨id, .sleeping now (now + pollInterval)⟩]⟩ :=
    hfirst ▸ .act rfl .missed
  have hwait : StatusStep serde uuid
      ⟨now, [], [], [message], [], [⟨id, .sleeping now (now + pollInterval)⟩]⟩
      (.wait (now + asyncTimeout))
      ⟨now + asyncTimeout, [], [], [message], [], [⟨id, .sleeping now (now + pollInterval)⟩]⟩ :=
    .wait (Nat.le_add_right _ _)
  have hwake : StatusStep serde uuid
      ⟨now + asyncTimeout, [], [], [message], [], [⟨id, .sleeping now (now + pollInterval)⟩]⟩
      (.act 0 .wake) ⟨now + asyncTimeout, [], [], [message], [], [⟨id, .polling now⟩]⟩ :=
    .act rfl (.wake (Nat.add_le_add_left (by decide) _))
  have hgiveUp : StatusStep serde uuid
      ⟨now + asyncTimeout, [], [], [message], [], [⟨id, .polling now⟩]⟩ (.act 0 .poll)
      ⟨now + asyncTimeout, [], [], [message], [],
        [⟨id, .done (.error (.timedOut "status response timed out"))⟩]⟩ :=
    hlast ▸ .act rfl .missed
  exact (((((asked_run now hsignal).snoc hconsume).snoc hlook).snoc hwait).snoc hwake).snoc hgiveUp

/-- The response of an API with its database, in the compact form. -/
def sampleResponse : List UInt8 :=
  Utf8.encode (Json.render (.object (acceptedFields (UuidCrate.hyphenated.display 7) true)))

def sampleRequest : Published :=
  ⟨requestSubject, messageId .hyphenated 7,
    Utf8.encode (Json.render (statusRequest .hyphenated 7))⟩

def sampleStatus : Json := statusValue ⟨responseSchema, 7, "ok", "apme-api", true⟩

theorem signal_sample : signal .compact .hyphenated 7 = .ok sampleRequest :=
  signal_eq_ok.mpr ⟨rfl, rfl, rfl, by decide +kernel⟩

theorem sample_run :
    StatusRun .compact .hyphenated 0 (answeredLabels .hyphenated 7 sampleResponse)
      ⟨0, [], [sampleRequest], [], [(expectedSubject .hyphenated 7, sampleResponse)],
        [⟨7, .done (.ok sampleStatus)⟩]⟩ := by
  have hparse : SerdeJson.compact.parse sampleResponse =
      some (.object (acceptedFields (UuidCrate.hyphenated.display 7) true)) := by
    have hformed : Json.WellFormed
        (.object (acceptedFields (UuidCrate.hyphenated.display 7) true)) :=
      ⟨trivial, trivial, trivial, trivial, trivial, trivial⟩
    simp only [SerdeJson.compact, sampleResponse, Utf8.decode_encode, Option.bind_some,
      Json.parse_render hformed]
  exact answered_run 0 signal_sample
    (receive_response UuidCrate.hyphenated_parsesDisplayed (by decide +kernel) hparse)

/-! ## Answers -/

theorem respond_of_mem (h : StatusRun serde uuid now ls s) {subject : Str} {payload : List UInt8}
    (hmem : (subject, payload) ∈ s.responses) : .respond subject payload ∈ ls := by
  refine h.invariant (I := fun ls s => ∀ response ∈ s.responses,
    .respond response.1 response.2 ∈ ls) (fun _ hnone => by cases hnone) ?_ _ hmem
  intro ls s l s' ih hstep response hresponse
  have hkept : response ∈ s.responses → .respond response.1 response.2 ∈ ls ++ [l] := fun hmem =>
    List.mem_append_left _ (ih response hmem)
  cases hstep with
  | respond =>
    rcases List.mem_append.mp hresponse with hresponse | hresponse
    · exact hkept hresponse
    · rw [List.mem_singleton.mp hresponse]
      exact List.mem_append_right _ List.mem_cons_self
  | expire hcut =>
    refine hkept ?_
    rw [hcut]
    rcases List.mem_append.mp hresponse with hresponse | hresponse
    · exact List.mem_append_left _ hresponse
    · exact List.mem_append_right _ (List.mem_cons_of_mem _ hresponse)
  | call | act | deliver | lose | consume | wait => exact hkept hresponse

/-- What an accepted response says: strictly the document of an answer to the
    operation, and whether the database is ready. -/
theorem decodeResponse_eq_ok {payload : List UInt8} {id : Uuid} {v : Json}
    (h : decodeResponse serde uuid payload id = .ok v) :
    ∃ doc text databaseReady, serde.parse payload = some doc ∧
      DerivedStruct.isShape statusFields doc ∧ uuid.parse text = some id ∧
      DerivedStruct.HasFields statusFields doc (acceptedFields text databaseReady) ∧
      v = statusValue ⟨responseSchema, id, "ok", "apme-api", databaseReady⟩ := by
  rw [decodeResponse] at h
  split at h
  · cases h
  · rename_i response hparse
    split at h
    · cases h
    · rename_i hchecks
      obtain ⟨schema, operationId, status, service, databaseReady⟩ := response
      simp only [not_or, not_not] at hchecks
      obtain ⟨rfl, rfl, rfl, rfl⟩ := hchecks
      obtain ⟨doc, hdoc, hresponse⟩ := Option.bind_eq_some_iff.mp hparse
      obtain ⟨hshape, text, htext, hfields⟩ := ofJson_eq_some.mp hresponse
      exact ⟨doc, text, databaseReady, hdoc, hshape, htext, hfields, (Except.ok.inj h).symm⟩

theorem receive_eq_ok {payload : List UInt8} {id : Uuid} {v : Json}
    (h : receive serde uuid payload id = .ok v) :
    payload.length ≤ maxResponseBytes ∧ decodeResponse serde uuid payload id = .ok v := by
  rw [receive] at h
  split at h
  · cases h
  · rename_i hlength
    refine ⟨Nat.le_of_not_lt hlength, ?_⟩
    cases hdecode : decodeResponse serde uuid payload id with
    | error error =>
      rw [hdecode] at h
      cases h
    | ok value =>
      rw [hdecode] at h
      rw [Except.ok.inj h]

/-- The request of the call has been acknowledged. -/
def Asked (ls : List StatusLabel) (i : Nat) : Prop := .act i .ack ∈ ls

/-- Someone has published a response with this value under the subject of the
    call. -/
def Answered (serde : SerdeJson) (uuid : UuidCrate) (ls : List StatusLabel) (id : Uuid) (v : Json) :
    Prop :=
  ∃ payload, .respond (expectedSubject uuid id) payload ∈ ls ∧ receive serde uuid payload id = .ok v

/-- A call that looks has asked, and what it returns has been answered. -/
theorem asked_and_answered (h : StatusRun serde uuid now ls s) {i : Nat} {call : StatusCall}
    (hcall : s.calls[i]? = some call) :
    (∀ started, call.phase = .polling started → Asked ls i) ∧
      (∀ started wake, call.phase = .sleeping started wake → Asked ls i) ∧
      ∀ v, call.phase = .done (.ok v) → Asked ls i ∧ Answered serde uuid ls call.operationId v := by
  have hlonger : ∀ {ls l i}, Asked ls i → Asked (ls ++ [l]) i := fun hmem =>
    List.mem_append_left _ hmem
  have hanswer : ∀ {ls l id v}, Answered serde uuid ls id v →
      Answered serde uuid (ls ++ [l]) id v := by
    rintro ls l id v ⟨payload, hmem, hreceive⟩
    exact ⟨payload, List.mem_append_left _ hmem, hreceive⟩
  refine calls_invariant (I := fun ls _ i call =>
    (∀ started, call.phase = .polling started → Asked ls i) ∧
      (∀ started wake, call.phase = .sleeping started wake → Asked ls i) ∧
      ∀ v, call.phase = .done (.ok v) → Asked ls i ∧ Answered serde uuid ls call.operationId v)
    ?_ ?_ ?_ h hcall
  · intro ls s s' i id _ _
    dsimp only [begin]
    cases signal serde uuid id <;> simp
  · rintro ls s s' l i call - - - ⟨hpolling, hsleeping, hdone⟩
    exact ⟨fun started heq => hlonger (hpolling started heq),
      fun started wake heq => hlonger (hsleeping started wake heq),
      fun v heq => ⟨hlonger (hdone v heq).1, hanswer (hdone v heq).2⟩⟩
  · rintro ls s s' i id phase phase' act hrun - hmove ⟨hpolling, hsleeping, hdone⟩
    dsimp only at hpolling hsleeping hdone
    cases hmove with
    | send | fail | drop => simp
    | ack =>
      refine ⟨fun started _ => ?_, by simp, by simp⟩
      exact List.mem_append_right _ List.mem_cons_self
    -- what is found has been published before
    | found hmem =>
      refine ⟨by simp, by simp, fun v heq => ⟨hlonger (hpolling _ rfl), ?_⟩⟩
      exact ⟨_, List.mem_append_left _ (respond_of_mem hrun hmem), StatusPhase.done.inj heq⟩
    | missed =>
      rw [missed]
      split
      · simp
      · exact ⟨by simp, fun _ _ _ => hlonger (hpolling _ rfl), by simp⟩
    | wake =>
      exact ⟨fun _ _ => hlonger (hsleeping _ _ rfl), by simp, by simp⟩

/-- Whatever else happens on the broker, a call that returns a status has had its
    request acknowledged, and returns what a response under its own subject says:
    a strict document for its own operation, within the size limit. -/
theorem status_correlated (h : StatusRun serde uuid now ls s) {i : Nat} {id : Uuid} {v : Json}
    (hcall : s.calls[i]? = some ⟨id, .done (.ok v)⟩) :
    .act i .ack ∈ ls ∧ ∃ payload doc text databaseReady,
      .respond (expectedSubject uuid id) payload ∈ ls ∧ payload.length ≤ maxResponseBytes ∧
      serde.parse payload = some doc ∧ DerivedStruct.isShape statusFields doc ∧
      uuid.parse text = some id ∧
      DerivedStruct.HasFields statusFields doc (acceptedFields text databaseReady) ∧
      v = statusValue ⟨responseSchema, id, "ok", "apme-api", databaseReady⟩ := by
  obtain ⟨hasked, payload, hmem, hreceive⟩ := (asked_and_answered h hcall).2.2 v rfl
  obtain ⟨hlength, hdecode⟩ := receive_eq_ok hreceive
  obtain ⟨doc, text, databaseReady, hdoc, hshape, htext, hfields, hv⟩ := decodeResponse_eq_ok hdecode
  exact ⟨hasked, payload, doc, text, databaseReady, hmem, hlength, hdoc, hshape, htext, hfields, hv⟩

theorem status_correlated_sample :
    let ls := answeredLabels .hyphenated 7 sampleResponse
    .act 0 .ack ∈ ls ∧ ∃ payload doc text databaseReady,
      .respond (expectedSubject .hyphenated 7) payload ∈ ls ∧ payload.length ≤ maxResponseBytes ∧
      SerdeJson.compact.parse payload = some doc ∧ DerivedStruct.isShape statusFields doc ∧
      UuidCrate.hyphenated.parse text = some 7 ∧
      DerivedStruct.HasFields statusFields doc (acceptedFields text databaseReady) ∧
      sampleStatus = statusValue ⟨responseSchema, 7, "ok", "apme-api", databaseReady⟩ :=
  status_correlated sample_run (i := 0) rfl

/-! ## The deadline -/

theorem now_le (h : StatusStep serde uuid s l s') : s.now ≤ s'.now := by
  cases h with
  | wait htime => exact htime
  | call | act | deliver | lose | consume | respond | expire => exact Nat.le_refl _

/-- How often a call has looked. -/
def looks (ls : List StatusLabel) (i : Nat) : Nat := ls.count (.act i .poll)

/-- The looks of a call keep their distance: before the deadline there is time for
    a hundred of them. -/
def Paced (now looks : Nat) : StatusPhase → Prop
  | .publishing | .acknowledging => looks = 0
  | .polling started => looks ≤ 100 ∧ started + looks * pollInterval ≤ now
  | .sleeping started wake => looks ≤ 100 ∧ started + looks * pollInterval ≤ wake
  | .done _ | .dropped => looks ≤ 101

/-- Time does no harm to the pace. -/
theorem Paced.later {time time' looks : Nat} (hle : time ≤ time') {phase : StatusPhase}
    (h : Paced time looks phase) : Paced time' looks phase := by
  cases phase with
  | polling started => exact ⟨h.1, h.2.trans hle⟩
  | publishing | acknowledging | sleeping | done | dropped => exact h

/-- A step of the call keeps the pace, with one look more if it looks. -/
theorem Paced.step {looks : Nat} {id : Uuid} {phase phase' : StatusPhase} {act : CallAct}
    (hmove : CallStep serde uuid s id phase act phase') (h : Paced s.now looks phase) :
    Paced s.now (looks + if act = .poll then 1 else 0) phase' := by
  cases hmove with
  | send => exact h
  | ack =>
    obtain rfl : looks = 0 := h
    exact ⟨Nat.zero_le _, by simp⟩
  | fail hphase =>
    have hzero : looks = 0 := by
      rcases hphase with rfl | rfl <;> exact h
    subst hzero
    exact Nat.zero_le _
  | found => exact Nat.succ_le_succ h.1
  | @missed started =>
    obtain ⟨hle, htime⟩ := h
    rw [if_pos rfl, missed]
    split
    · exact Nat.succ_le_succ hle
    · rename_i hearly
      -- one interval more has gone by for each look
      have hnext : started + (looks + 1) * pollInterval ≤ s.now + pollInterval := by
        rw [Nat.succ_mul, ← Nat.add_assoc]
        exact Nat.add_le_add_right htime _
      rw [asyncTimeout_eq] at hearly
      rw [pollInterval_eq] at htime
      exact ⟨by omega, hnext⟩
  | wake htime => exact ⟨h.1, h.2.trans htime⟩
  | @drop phase _ =>
    cases phase with
    | publishing | acknowledging =>
      obtain rfl : looks = 0 := h
      exact Nat.zero_le _
    | polling | sleeping => exact h.1.trans (by decide)
    | done | dropped => exact h

theorem count_concat (ls : List StatusLabel) (i : Nat) (l : StatusLabel) :
    looks (ls ++ [l]) i = looks ls i + if l = .act i .poll then 1 else 0 := by
  rw [looks, List.count_append, List.count_singleton]
  simp only [beq_iff_eq, looks]

theorem paced (h : StatusRun serde uuid now ls s) {i : Nat} {call : StatusCall}
    (hcall : s.calls[i]? = some call) : Paced s.now (looks ls i) call.phase := by
  refine calls_invariant (I := fun ls s i call => Paced s.now (looks ls i) call.phase) ?_ ?_ ?_ h hcall
  · intro ls s s' i id _ hnone
    have hzero : looks (ls ++ [.call id]) i = 0 := by
      rw [count_concat, if_neg (by simp), looks, List.count_eq_zero_of_not_mem (hnone .poll)]
    dsimp only [begin]
    rw [hzero]
    cases signal serde uuid id <;> simp [Paced]
  · intro ls s s' l i call _ hstep hne hpaced
    rw [count_concat, if_neg (hne .poll)]
    exact hpaced.later (now_le hstep)
  · intro ls s s' i id phase phase' act _ hstep hmove hpaced
    have hlook : (if StatusLabel.act i act = .act i .poll then 1 else 0) =
        if act = .poll then 1 else 0 := by simp
    rw [count_concat, hlook]
    exact (hpaced.step hmove).later (now_le hstep)

/-- The request of the call was acknowledged at a time `started` of the run. -/
def AskedAt (serde : SerdeJson) (uuid : UuidCrate) (now : Nat) (ls : List StatusLabel) (i started : Nat) :
    Prop :=
  ∃ before behind t, ls = before ++ .act i .ack :: behind ∧
    StatusRun serde uuid now before t ∧ t.now = started

theorem AskedAt.longer {i started : Nat} (h : AskedAt serde uuid now ls i started)
    (l : StatusLabel) : AskedAt serde uuid now (ls ++ [l]) i started := by
  obtain ⟨before, behind, t, rfl, hrun, ht⟩ := h
  exact ⟨before, behind ++ [l], t, by simp, hrun, ht⟩

/-- A phase knows when the request was acknowledged; a call that has timed out
    has waited until the deadline. -/
def Timed (serde : SerdeJson) (uuid : UuidCrate) (now : Nat) (ls : List StatusLabel) (s : System)
    (i : Nat) : StatusPhase → Prop
  | .polling started | .sleeping started _ => AskedAt serde uuid now ls i started
  | .done (.error (.timedOut _)) =>
    ∃ started, AskedAt serde uuid now ls i started ∧ started + asyncTimeout ≤ s.now
  | _ => True

theorem timed_receive (payload : List UInt8) (id : Uuid) (i : Nat) :
    Timed serde uuid now ls s i (.done (receive serde uuid payload id)) := by
  rw [receive]
  split
  · trivial
  · cases decodeResponse serde uuid payload id <;> trivial

theorem timed_begin (id : Uuid) (i : Nat) :
    Timed serde uuid now ls s i (begin serde uuid id) := by
  cases hsignal : signal serde uuid id with
  | ok message =>
    rw [begin, hsignal]
    trivial
  | error error =>
    rw [begin, hsignal]
    rw [signal] at hsignal
    split at hsignal
    · rw [← Except.error.inj hsignal]
      trivial
    · split at hsignal
      · rw [← Except.error.inj hsignal]
        trivial
      · cases hsignal

theorem Timed.later {i : Nat} {phase : StatusPhase} (hstep : StatusStep serde uuid s l s')
    (h : Timed serde uuid now ls s i phase) : Timed serde uuid now (ls ++ [l]) s' i phase := by
  cases phase with
  | polling | sleeping => exact h.longer l
  | publishing | acknowledging | dropped => trivial
  | done result =>
    cases result with
    | ok => trivial
    | error error =>
      cases error with
      | transport | publish => trivial
      | timedOut =>
        obtain ⟨started, hasked, hle⟩ := h
        exact ⟨started, hasked.longer l, hle.trans (now_le hstep)⟩

theorem timed (h : StatusRun serde uuid now ls s) {i : Nat} {call : StatusCall}
    (hcall : s.calls[i]? = some call) : Timed serde uuid now ls s i call.phase := by
  refine calls_invariant (I := fun ls s i call => Timed serde uuid now ls s i call.phase)
    ?_ ?_ ?_ h hcall
  · exact fun ls s s' i id _ _ => timed_begin id i
  · exact fun ls s s' l i call _ hstep _ htimed => htimed.later hstep
  · intro ls s s' i id phase phase' act hrun hstep hmove htimed
    cases hmove with
    | send | fail | drop => trivial
    | ack => exact ⟨ls, [], s, rfl, hrun, rfl⟩
    | found => exact timed_receive _ _ _
    | @missed started =>
      have hasked := AskedAt.longer htimed (.act i .poll)
      rw [missed]
      split
      · rename_i hlate
        rw [asyncTimeout_eq] at hlate
        have hle : started + asyncTimeout ≤ s.now := by
          rw [asyncTimeout_eq]
          omega
        exact ⟨started, hasked, hle.trans (now_le hstep)⟩
      · exact hasked
    | wake => exact AskedAt.longer htimed _

/-- A call looks at most 101 times, however the steps fall, and gives up only when
    ten seconds have passed since its request was acknowledged. -/
theorem status_bounded (h : StatusRun serde uuid now ls s) {i : Nat} {call : StatusCall}
    (hcall : s.calls[i]? = some call) :
    ls.count (.act i .poll) ≤ 101 ∧
      ∀ message, call.phase = .done (.error (.timedOut message)) →
        ∃ before behind t, ls = before ++ .act i .ack :: behind ∧
          StatusRun serde uuid now before t ∧ t.now + asyncTimeout ≤ s.now := by
  refine ⟨?_, fun message hphase => ?_⟩
  · have hpaced := paced h hcall
    change looks ls i ≤ 101
    cases hphase : call.phase with
    | publishing | acknowledging =>
      rw [hphase] at hpaced
      exact le_of_eq_of_le hpaced (by decide)
    | polling | sleeping =>
      rw [hphase] at hpaced
      exact hpaced.1.trans (by decide)
    | done | dropped =>
      rw [hphase] at hpaced
      exact hpaced
  · have htimed := timed h hcall
    rw [hphase] at htimed
    obtain ⟨started, ⟨before, behind, t, hls, hrun, rfl⟩, hle⟩ := htimed
    exact ⟨before, behind, t, hls, hrun, hle⟩

/-- A call that nobody answers. -/
theorem status_bounded_sample :
    let ls := unansweredLabels 0 7
    ls.count (.act 0 .poll) ≤ 101 ∧
      ∃ before behind t, ls = before ++ .act 0 .ack :: behind ∧
        StatusRun .compact .hyphenated 0 before t ∧ t.now + asyncTimeout ≤ 0 + asyncTimeout := by
  obtain ⟨hlooks, htimedOut⟩ := status_bounded (unanswered_run 0 signal_sample) (i := 0) rfl
  exact ⟨hlooks, htimedOut _ rfl⟩

/-! ## Requests -/

end DataPlane.Nats
