-- SUMMARY: The TCP channel against a faithful server: when a call receives its own response, and what one abandoned call does to the rest.
import ApmeWebMash.DataPlane.Tcp

/-! # Resynchronisation

The server answers every request it receives once, in order, with an `ok`
response that carries the identifier of the request. A call takes one frame from
the stream. As long as every call waits for its frame, the frame is its own. A
call that gives up after its frame was encoded leaves its response behind, and
from then on every call takes the response of an earlier one and is rejected.
Giving up while it waits is one way. The other is to give up while it sends: the
frame stays in the write buffer of the channel, and the next call flushes it. -/

namespace DataPlane.Tcp

/-- What happens on a channel with its server: a label of the channel, a call
    that gives up while it sends and leaves its frame in the write buffer, and a
    frame that the server receives from there. -/
inductive Event where
  | channel (label : Label)
  | left (call : Call)
  | flushed (call : Call)

/-- The call gives up between the encoding of its frame and its receive. -/
def Event.Abandons : Event → Prop
  | .channel (.timedOut _) | .channel (.dropped _) | .left _ => True
  | _ => False

section
variable (serde : SerdeJson) (uuid : UuidCrate)

/-- The frame is a well-formed `ok` response to the call. -/
def Answers (frame : List UInt8) (call : Call) (v : Json) : Prop :=
  frame.length ≤ maxResponseBytes ∧
    decodeResponse serde uuid frame = some ⟨call.requestId, "ok", some v, none⟩

/-- A channel, the requests that its server has received and not answered, and
    the calls whose frames are in the write buffer of the channel. -/
structure Served where
  channel : Channel
  pending : List Call
  buffered : List Call

def Served.connected : Served := ⟨.connected, [], []⟩

/-- The steps that need no part of the server. A call that is `unsent` has put
    nothing into the write buffer. -/
def Label.IsOwn : Label → Prop
  | .rejected _ _ | .unsent _ | .returned _ _ | .timedOut _ | .dropped _ => True
  | _ => False

/-- The steps of a channel with its server: a send flushes the write buffer, so
    the server receives what was left there and then the request, and what is
    delivered answers the oldest request. -/
inductive ServedStep : Served → Event → Served → Prop where
  | sent {ch ch' : Channel} {pending buffered : List Call} {call : Call} {payload : List UInt8} :
    Step serde uuid ch (.sent call payload) ch' →
    ServedStep ⟨ch, pending, buffered⟩ (.channel (.sent call payload))
      ⟨ch', pending ++ buffered ++ [call], []⟩
  | left {ch ch' : Channel} {pending buffered : List Call} {call : Call} :
    Step serde uuid ch (.unsent call) ch' →
    ServedStep ⟨ch, pending, buffered⟩ (.left call) ⟨ch', pending, buffered ++ [call]⟩
  | flushed {ch : Channel} {pending buffered : List Call} {call : Call} :
    ServedStep ⟨ch, pending, call :: buffered⟩ (.flushed call) ⟨ch, pending ++ [call], buffered⟩
  | answered {ch ch' : Channel} {pending buffered : List Call} {call : Call}
      {frame : List UInt8} {v : Json} :
    Answers serde uuid frame call v → Step serde uuid ch (.delivered (.frame frame)) ch' →
    ServedStep ⟨ch, call :: pending, buffered⟩ (.channel (.delivered (.frame frame)))
      ⟨ch', pending, buffered⟩
  | own {ch ch' : Channel} {pending buffered : List Call} {label : Label} :
    label.IsOwn → Step serde uuid ch label ch' →
    ServedStep ⟨ch, pending, buffered⟩ (.channel label) ⟨ch', pending, buffered⟩

/-- The call that waits, if its own response has been delivered, returns the
    payload of that response and nothing else, and does not time out. -/
def ReturnsOwn (s : Served) : Prop :=
  ∀ call frame v, s.channel.holder = some call → .frame frame ∈ s.channel.inbound →
    Answers serde uuid frame call v →
    (∃ s', ServedStep serde uuid s (.channel (.returned call (.ok v))) s') ∧
      (∀ result s', ServedStep serde uuid s (.channel (.returned call result)) s' →
        result = .ok v) ∧
      ∀ s', ¬ ServedStep serde uuid s (.channel (.timedOut call)) s'

end

/-- The calls whose frame was encoded, in order. -/
def framedCalls (events : List Event) : List Call :=
  events.filterMap fun event => match event with
    | .channel (.sent call _) | .left call => some call
    | _ => none

@[simp] theorem framedCalls_append (es fs : List Event) :
    framedCalls (es ++ fs) = framedCalls es ++ framedCalls fs :=
  List.filterMap_append

theorem framedCalls_sublist (es fs : List Event) :
    (framedCalls es).Sublist (framedCalls (es ++ fs)) := by
  rw [framedCalls_append]
  exact List.sublist_append_left _ _

variable {serde : SerdeJson} {uuid : UuidCrate}

/-! ## Responses that are owed -/

/-- The arrival answers the call. -/
def IsAnswer (serde : SerdeJson) (uuid : UuidCrate) (arrival : Arrival) (call : Call) : Prop :=
  ∃ frame v, arrival = .frame frame ∧ Answers serde uuid frame call v

/-- The responses that are on their way, in the stream (`ready`), owed by the
    server or not yet asked for, are those of the calls that gave up (`stale`)
    and of the call that waits, in this order. -/
structure Owed (serde : SerdeJson) (uuid : UuidCrate) (events : List Event) (s : Served)
    (ready stale : List Call) : Prop where
  answers : List.Forall₂ (IsAnswer serde uuid) s.channel.inbound ready
  owed : ready ++ s.pending ++ s.buffered = stale ++ s.channel.holder.toList
  stale_nil_iff : stale = [] ↔ ∀ e ∈ events, ¬ e.Abandons
  sublist : (stale ++ s.channel.holder.toList).Sublist (framedCalls events)

theorem forall_mem_concat {events : List Event} {event : Event} (h : ¬ event.Abandons) :
    (∀ e ∈ events ++ [event], ¬ e.Abandons) ↔ ∀ e ∈ events, ¬ e.Abandons := by
  simp only [List.forall_mem_append, List.forall_mem_singleton, h, not_false_eq_true, and_true]

/-- A step that moves a request nearer to the server, or does nothing to any,
    keeps the account. -/
theorem Owed.moved {events : List Event} {s s' : Served} {ready stale : List Call} {event : Event}
    (hinv : Owed serde uuid events s ready stale) (h : ¬ event.Abandons)
    (hchannel : s'.channel = s.channel)
    (hmoved : s'.pending ++ s'.buffered = s.pending ++ s.buffered) :
    Owed serde uuid (events ++ [event]) s' ready stale where
  answers := hchannel ▸ hinv.answers
  owed := by rw [List.append_assoc, hmoved, ← List.append_assoc, hchannel, hinv.owed]
  stale_nil_iff := by rw [hinv.stale_nil_iff, forall_mem_concat h]
  sublist := hchannel ▸ hinv.sublist.trans (framedCalls_sublist events [event])

/-- A call that gives up as it waits leaves its response behind. -/
theorem Owed.abandon {events : List Event} {inbound : List Arrival}
    {pending buffered : List Call} {call : Call} {ready stale : List Call} {event : Event}
    (hinv : Owed serde uuid events ⟨⟨inbound, some call⟩, pending, buffered⟩ ready stale)
    (h : event.Abandons) :
    Owed serde uuid (events ++ [event]) ⟨⟨inbound, none⟩, pending, buffered⟩ ready
      (stale ++ [call]) where
  answers := hinv.answers
  owed := by simpa using hinv.owed
  stale_nil_iff := by simp [h]
  sublist := by simpa using hinv.sublist.trans (framedCalls_sublist events [event])

/-- So does a call that gives up as it sends. -/
theorem Owed.leave {events : List Event} {inbound : List Arrival}
    {pending buffered : List Call} {ready stale : List Call}
    (hinv : Owed serde uuid events ⟨⟨inbound, none⟩, pending, buffered⟩ ready stale)
    (call : Call) :
    Owed serde uuid (events ++ [.left call]) ⟨⟨inbound, none⟩, pending, buffered ++ [call]⟩ ready
      (stale ++ [call]) where
  answers := hinv.answers
  owed := by
    have howed : ready ++ pending ++ buffered = stale ++ [] := hinv.owed
    simp [← List.append_assoc, howed]
  stale_nil_iff := by simp [Event.Abandons]
  sublist := by
    have hsub : (stale ++ []).Sublist (framedCalls events) := hinv.sublist
    rw [List.append_nil] at hsub
    simpa [framedCalls] using hsub.append (List.Sublist.refl [call])

/-- A call that sends waits behind all that are owed. -/
theorem Owed.send {events : List Event} {inbound : List Arrival}
    {pending buffered : List Call} {ready stale : List Call}
    (hinv : Owed serde uuid events ⟨⟨inbound, none⟩, pending, buffered⟩ ready stale)
    (call : Call) (payload : List UInt8) :
    Owed serde uuid (events ++ [.channel (.sent call payload)])
      ⟨⟨inbound, some call⟩, pending ++ buffered ++ [call], []⟩ ready stale where
  answers := hinv.answers
  owed := by
    have howed : ready ++ pending ++ buffered = stale ++ [] := hinv.owed
    simp [← List.append_assoc, howed]
  stale_nil_iff := by
    rw [hinv.stale_nil_iff, forall_mem_concat (by simp [Event.Abandons])]
  sublist := by
    have hsub : (stale ++ []).Sublist (framedCalls events) := hinv.sublist
    rw [List.append_nil] at hsub
    simpa [framedCalls] using hsub.append (List.Sublist.refl [call])

/-- A call that returns takes the oldest response, and leaves its own if it is
    another. -/
theorem Owed.take {events : List Event} {inbound : List Arrival} {arrival : Arrival}
    {pending buffered : List Call} {call : Call} {ready stale : List Call} {event : Event}
    (hinv : Owed serde uuid events ⟨⟨arrival :: inbound, some call⟩, pending, buffered⟩ ready stale)
    (h : ¬ event.Abandons) :
    ∃ ready' stale', Owed serde uuid (events ++ [event]) ⟨⟨inbound, none⟩, pending, buffered⟩
      ready' stale' := by
  obtain ⟨hanswers, howed, hstale, hsub⟩ := hinv
  cases hanswers with
  | @cons _ first _ ready _ hanswers =>
    rw [List.cons_append, List.cons_append] at howed
    cases stale with
    | nil =>
      obtain ⟨-, hnil⟩ := List.cons.inj howed
      exact ⟨ready, [], hanswers, hnil, by rw [forall_mem_concat h, ← hstale], List.nil_sublist _⟩
    | cons x stale =>
      obtain ⟨-, hrest⟩ := List.cons.inj howed
      refine ⟨ready, stale ++ [call], hanswers, by simpa using hrest, ?_, ?_⟩
      · rw [forall_mem_concat h, ← hstale]
        simp
      · have hkept := hsub.trans (framedCalls_sublist events [event])
        simpa using (List.sublist_cons_self x _).trans hkept

/-- Each step keeps the account of the responses. -/
theorem Owed.step {events : List Event} {s s' : Served} {ready stale : List Call} {event : Event}
    (hinv : Owed serde uuid events s ready stale) (h : ServedStep serde uuid s event s') :
    ∃ ready' stale', Owed serde uuid (events ++ [event]) s' ready' stale' := by
  cases h with
  | sent hstep =>
    cases hstep with
    | sent _ => exact ⟨_, _, hinv.send _ _⟩
  | left hstep =>
    cases hstep with
    | unsent _ => exact ⟨_, _, hinv.leave _⟩
  | flushed => exact ⟨_, _, hinv.moved (by simp [Event.Abandons]) rfl (by simp)⟩
  | @answered _ _ _ _ call frame v hanswer hstep =>
    cases hstep with
    | delivered =>
      obtain ⟨hanswers, howed, hstale, hsub⟩ := hinv
      refine ⟨ready ++ [call], stale, ?_, by simpa using howed, ?_, ?_⟩
      · exact List.rel_append hanswers (.cons ⟨frame, v, rfl, hanswer⟩ .nil)
      · rw [hstale, forall_mem_concat (by simp [Event.Abandons])]
      · exact hsub.trans (framedCalls_sublist events _)
  | own hown hstep =>
    cases hstep with
    | sent _ | delivered => exact hown.elim
    | rejected _ | unsent _ => exact ⟨_, _, hinv.moved (by simp [Event.Abandons]) rfl rfl⟩
    | returned => exact hinv.take (by simp [Event.Abandons])
    | timedOut | dropped => exact ⟨_, _, hinv.abandon trivial⟩

theorem owed_of_run {events : List Event} {s : Served}
    (h : Runs (ServedStep serde uuid) .connected events s) :
    ∃ ready stale, Owed serde uuid events s ready stale := by
  refine h.invariant (I := fun events s => ∃ ready stale, Owed serde uuid events s ready stale)
    ⟨[], [], .nil, rfl, by simp, List.Sublist.refl _⟩ ?_
  intro es t e u hinv hstep
  obtain ⟨ready, stale, hinv⟩ := hinv
  exact hinv.step hstep

/-! ## One call -/

theorem receiveResponse_answer {frame : List UInt8} {call : Call} {v : Json}
    (h : Answers serde uuid frame call v) :
    receiveResponse serde uuid call.requestId (.frame frame) = .ok v := by
  simp [receiveResponse, Nat.not_lt.mpr h.1, h.2, acceptResponse]

/-- A response to another request is rejected. -/
theorem receiveResponse_stale {frame : List UInt8} {call other : Call} {v : Json}
    (h : Answers serde uuid frame other v) (hne : other.requestId ≠ call.requestId) :
    receiveResponse serde uuid call.requestId (.frame frame) =
      .error (.invalidData "mTLS cases response rejected") := by
  simp [receiveResponse, Nat.not_lt.mpr h.1, h.2, acceptResponse, hne]

/-- What a receiving call and the stream look like when a call returns. -/
theorem returned_inv {s s' : Served} {call : Call} {result : Except Error Json}
    (h : ServedStep serde uuid s (.channel (.returned call result)) s') :
    ∃ arrival inbound, s.channel = ⟨arrival :: inbound, some call⟩ ∧
      result = receiveResponse serde uuid call.requestId arrival := by
  cases h with
  | own _ hstep =>
    cases hstep with
    | returned => exact ⟨_, _, rfl, rfl⟩

/-- In a run in which no call has given up after its frame was encoded, the call
    that waits returns its own response as soon as that is delivered. After a
    call has given up, every call that takes a frame is rejected. -/
theorem returnsOwn_of_run {events : List Event} {s : Served}
    (hrun : Runs (ServedStep serde uuid) .connected events s) :
    ((∀ e ∈ events, ¬ e.Abandons) → ReturnsOwn serde uuid s) ∧
    (((framedCalls events).map Call.requestId).Nodup → (∃ e ∈ events, e.Abandons) →
      ∀ call result s', ServedStep serde uuid s (.channel (.returned call result)) s' →
        result = .error (.invalidData "mTLS cases response rejected")) := by
  obtain ⟨ready, stale, hanswers, howed, hstale, hsub⟩ := owed_of_run hrun
  constructor
  · intro hkept call frame v hholder hframe hanswer
    obtain ⟨⟨inbound, holder⟩, pending, buffered⟩ := s
    obtain rfl : holder = some call := hholder
    obtain rfl := hstale.mpr hkept
    simp only [List.nil_append, Option.toList_some] at howed
    -- the only response under way is the one of the call
    cases hanswers with
    | nil => cases hframe
    | @cons first call' rest ready hfirst hrest =>
      rw [List.cons_append, List.cons_append] at howed
      obtain ⟨rfl, hnil⟩ := List.cons.inj howed
      obtain ⟨hnone, rfl⟩ := List.append_eq_nil_iff.mp hnil
      obtain ⟨rfl, rfl⟩ := List.append_eq_nil_iff.mp hnone
      cases hrest
      obtain rfl : Arrival.frame frame = first := List.mem_singleton.mp hframe
      have hresult := receiveResponse_answer hanswer
      refine ⟨⟨⟨⟨[], none⟩, [], []⟩, ?_⟩, fun result s' hstep => ?_, fun s' hstep => ?_⟩
      · have hstep : Step serde uuid ⟨[.frame frame], some call'⟩ (.returned call'
            (receiveResponse serde uuid call'.requestId (.frame frame))) ⟨[], none⟩ := .returned
        rw [hresult] at hstep
        exact .own trivial hstep
      · obtain ⟨arrival, inbound, heq, rfl⟩ := returned_inv hstep
        obtain ⟨hinbound, -⟩ := Channel.mk.inj heq
        rw [← (List.cons.inj hinbound).1, hresult]
      · cases hstep with
        | own _ hstep => cases hstep
  · intro hdistinct hsome call result s' hstep
    obtain ⟨arrival, inbound, heq, rfl⟩ := returned_inv hstep
    rw [heq] at hanswers howed hsub
    cases stale with
    | nil =>
      obtain ⟨e, he, habandons⟩ := hsome
      exact absurd habandons (hstale.mp rfl e he)
    | cons x stale =>
      cases hanswers with
      | @cons _ first _ ready hfirst _ =>
        obtain ⟨rfl, -⟩ := List.cons.inj howed
        obtain ⟨frame, v, rfl, hanswer⟩ := hfirst
        have hnodup := (hsub.map Call.requestId).nodup hdistinct
        refine receiveResponse_stale hanswer fun hid => ?_
        simp [hid] at hnodup

/-! ## Two calls -/

theorem answers_sample (n : Fin 3) :
    Answers .compact .hyphenated (sampleFrame n) (sampleCall n) (.object []) :=
  ⟨length_sampleFrame_le n, decodeResponse_sampleFrame n⟩

/-- A call that waits with its own response after another call has returned. A
    call that waits behind the frame of one that gave up while it sent. -/
theorem returnsOwn_of_run_sample :
    ReturnsOwn .compact .hyphenated ⟨⟨[.frame (sampleFrame 2)], some (sampleCall 2)⟩, [], []⟩ ∧
    ∀ result s', ServedStep .compact .hyphenated
      ⟨⟨[.frame (sampleFrame 1)], some (sampleCall 2)⟩, [sampleCall 2], []⟩
      (.channel (.returned (sampleCall 2) result)) s' →
        result = .error (.invalidData "mTLS cases response rejected") := by
  obtain ⟨payload₁, hpayload₁⟩ := exists_requestPayload_sample 1
  obtain ⟨payload₂, hpayload₂⟩ := exists_requestPayload_sample 2
  constructor
  · have hreturned : Step .compact .hyphenated ⟨[.frame (sampleFrame 1)], some (sampleCall 1)⟩
        (.returned (sampleCall 1) (.ok (.object []))) ⟨[], none⟩ :=
      receiveResponse_answer (answers_sample 1) ▸ .returned
    have hrun : Runs (ServedStep .compact .hyphenated) .connected
        [.channel (.sent (sampleCall 1) payload₁), .channel (.delivered (.frame (sampleFrame 1))),
          .channel (.returned (sampleCall 1) (.ok (.object []))),
          .channel (.sent (sampleCall 2) payload₂), .channel (.delivered (.frame (sampleFrame 2)))]
        ⟨⟨[.frame (sampleFrame 2)], some (sampleCall 2)⟩, [], []⟩ :=
      ((((Runs.nil.snoc (.sent (.sent hpayload₁))).snoc
        (.answered (answers_sample 1) .delivered)).snoc (.own trivial hreturned)).snoc
        (.sent (.sent hpayload₂))).snoc (.answered (answers_sample 2) .delivered)
    exact (returnsOwn_of_run hrun).1 (by simp [Event.Abandons])
  · have hrun : Runs (ServedStep .compact .hyphenated) .connected
        [.left (sampleCall 1), .channel (.sent (sampleCall 2) payload₂),
          .channel (.delivered (.frame (sampleFrame 1)))]
        ⟨⟨[.frame (sampleFrame 1)], some (sampleCall 2)⟩, [sampleCall 2], []⟩ :=
      ((Runs.nil.snoc (.left (.unsent hpayload₁))).snoc (.sent (.sent hpayload₂))).snoc
        (.answered (answers_sample 1) .delivered)
    exact (returnsOwn_of_run hrun).2 (by simp [framedCalls, sampleCall])
      ⟨_, List.mem_cons_self, trivial⟩ (sampleCall 2)

/-- The first call times out. The second one has its own response in the stream
    and takes the first one's. -/
theorem not_returnsOwn_after_timeout :
    ¬ ∀ (events : List Event) (s : Served),
      Runs (ServedStep .compact .hyphenated) .connected events s →
      ((framedCalls events).map Call.requestId).Nodup → ReturnsOwn .compact .hyphenated s := by
  intro hclaim
  obtain ⟨payload₁, hpayload₁⟩ := exists_requestPayload_sample 1
  obtain ⟨payload₂, hpayload₂⟩ := exists_requestPayload_sample 2
  have hrun : Runs (ServedStep .compact .hyphenated) .connected
      [.channel (.sent (sampleCall 1) payload₁), .channel (.timedOut (sampleCall 1)),
        .channel (.delivered (.frame (sampleFrame 1))), .channel (.sent (sampleCall 2) payload₂),
        .channel (.delivered (.frame (sampleFrame 2)))]
      ⟨⟨[.frame (sampleFrame 1), .frame (sampleFrame 2)], some (sampleCall 2)⟩, [], []⟩ :=
    ((((Runs.nil.snoc (.sent (.sent hpayload₁))).snoc (.own trivial .timedOut)).snoc
      (.answered (answers_sample 1) .delivered)).snoc (.sent (.sent hpayload₂))).snoc
      (.answered (answers_sample 2) .delivered)
  have hreturns := hclaim _ _ hrun (by simp [framedCalls, sampleCall])
  obtain ⟨-, honly, -⟩ := hreturns (sampleCall 2) (sampleFrame 2) (.object []) rfl (by simp)
    (answers_sample 2)
  have hrejected : receiveResponse .compact .hyphenated (sampleCall 2).requestId
      (.frame (sampleFrame 1)) = .error (.invalidData "mTLS cases response rejected") :=
    receiveResponse_stale (answers_sample 1) (by decide)
  have hstale := honly _ _ (.own trivial .returned)
  rw [hrejected] at hstale
  cases hstale

end DataPlane.Tcp
