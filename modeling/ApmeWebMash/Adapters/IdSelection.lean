-- SUMMARY: Which source an identifier is taken from: the first that is not blank, although a later one may be the first usable.
import ApmeWebMash.Adapters.ResponseIds

/-! # Selection of identifiers

Both adapters look at several headers for an identifier. They choose a header
first, by the value not being blank, and sanitize what they chose. A value of
which the sanitizer leaves nothing is chosen like any other, and the headers
behind it are not looked at. -/

namespace Adapters

open Lambdas (Host HttpRequest RequestId.generated RequestId.isIdChar RequestId.sanitize RouteSpec)
open OracleFn (ParsedRequest)

/-! ## Candidates -/

/-- The values of the headers that the Fn adapter looks at. -/
def fnCandidates (headers : BTreeMap Str Str) : List Str :=
  OracleFn.requestIdHeaders.filterMap headers.get

/-- The values of the headers that the portable adapter looks at, as far as they
    are text. -/
def httpCandidates (http : HttpCrate) (headers : HeaderMap) : List Str :=
  Lambdas.correlationHeaders.filterMap fun name => (headers.get name).bind http.toStr

/-- What the adapters make of their headers. -/
def chosen (values : List Str) : Option Str :=
  (values.findSome? Lambdas.CloudEvent.nonBlank).bind RequestId.sanitize

/-- The first candidate of which the sanitizer leaves something. -/
def firstUsable (values : List Str) : Option Str :=
  values.findSome? RequestId.sanitize

/-- The sanitizer leaves something of the value. -/
def Usable (value : Str) : Prop := ∃ c ∈ value, RequestId.isIdChar c

/-- The first candidate that is not blank is not usable, and one behind it is. -/
def Shadowed : List Str → Prop
  | [] => False
  | value :: values =>
    if Str.trim value = [] then Shadowed values
    else ¬ Usable value ∧ ∃ later ∈ values, Usable later

/-- The Fn adapter handles a request that was read under the first usable
    candidate, and under a generated identifier only if there is none. Where none
    was read, the answers 400, 413 and 500 have no headers to look at. -/
structure FnKeepsUsable (serde : SerdeJson) (request : ParsedRequest) (spec : RouteSpec) : Prop where
  dispatched : ∀ host normalized, OracleFn.fnRequest serde host request spec = .ok normalized →
    normalized.requestId =
      (firstUsable (fnCandidates request.headers)).getD (OracleFn.generatedRequestId host)
  rejected : ∀ host response, OracleFn.fnRequest serde host request spec = .error response →
    response.headers.get "x-request-id" =
      some ((firstUsable (fnCandidates request.headers)).getD (OracleFn.generatedRequestId host))

/-- The portable adapter decodes the request, with this identifier of an event. -/
def DecodesWith (serde : SerdeJson) (http : HttpCrate) (request : HttpRequest) (spec : RouteSpec)
    (eventId : Option Str) : Prop :=
  ∃ body payload, request.body = some body ∧ body.length ≤ spec.maxEventBytes ∧
    Lambdas.decodeHttpPayload serde http request.headers body = .ok (payload, eventId)

/-- The portable adapter does so too; its first candidate is the identifier of
    the event. -/
def HttpKeepsUsable (serde : SerdeJson) (http : HttpCrate) (request : HttpRequest)
    (spec : RouteSpec) : Prop :=
  ∀ eventId, DecodesWith serde http request spec eventId →
    ∀ host normalized, Lambdas.httpRequest serde http host request spec = .ok normalized →
      normalized.requestId =
        (firstUsable (eventId.toList ++ httpCandidates http request.headers)).getD
          (Lambdas.generatedRequestId host)

/-! ## Usable values -/

theorem usable_trim {value : Str} : Usable (Str.trim value) ↔ Usable value := by
  constructor
  · rintro ⟨c, hc, hid⟩
    exact ⟨c, Str.mem_of_mem_trim hc, hid⟩
  · rintro ⟨c, hc, hid⟩
    obtain ⟨l, r, hvalue, hl, hr⟩ := Str.exists_trim value
    obtain ⟨hlow, hhigh⟩ := Lambdas.RequestId.visible_of_isIdChar hid
    have hspace : ¬ Str.isWhitespace c := by
      rw [Str.isWhitespace_eq_false_of_visible hlow (by omega)]
      exact Bool.false_ne_true
    rw [hvalue, List.append_assoc, List.mem_append, List.mem_append] at hc
    rcases hc with hc | hc | hc
    · exact absurd (hl c hc) hspace
    · exact ⟨c, hc, hid⟩
    · exact absurd (hr c hc) hspace

theorem sanitize_eq_none_iff {value : Str} : RequestId.sanitize value = none ↔ ¬ Usable value := by
  have hnil : ((Str.trim value).filter RequestId.isIdChar).take 128 = [] ↔
      ¬ Usable (Str.trim value) := by
    rw [List.take_eq_nil_iff, or_iff_right (by decide), List.filter_eq_nil_iff, Usable]
    simp only [not_exists, not_and]
  rw [RequestId.sanitize, ← usable_trim, ← hnil]
  split
  · exact iff_of_true rfl ‹_›
  · exact iff_of_false (Option.some_ne_none _) ‹_›

theorem firstUsable_eq_none_iff {values : List Str} :
    firstUsable values = none ↔ ¬ ∃ value ∈ values, Usable value := by
  rw [firstUsable, List.findSome?_eq_none_iff]
  simp only [sanitize_eq_none_iff, not_exists, not_and]

/-- To choose first is to find the first usable candidate, unless that is shadowed. -/
theorem chosen_eq_iff (values : List Str) :
    chosen values = firstUsable values ↔ ¬ Shadowed values := by
  induction values with
  | nil => exact iff_of_true rfl id
  | cons value values ih =>
    rw [chosen, firstUsable, List.findSome?_cons, List.findSome?_cons, Lambdas.CloudEvent.nonBlank,
      Shadowed]
    by_cases hblank : Str.trim value = []
    · have hnone : RequestId.sanitize value = none := by
        rw [sanitize_eq_none_iff, ← usable_trim, hblank]
        rintro ⟨c, hc, -⟩
        cases hc
      rw [if_pos hblank, if_pos hblank, hnone]
      exact ih
    · rw [if_neg hblank, if_neg hblank, ← firstUsable]
      dsimp only
      rw [Option.bind_some, Lambdas.RequestId.sanitize_trim]
      -- a value that is not blank is chosen, usable or not
      cases hid : RequestId.sanitize value with
      | some id =>
        have husable : Usable value := by
          by_contra hnot
          rw [sanitize_eq_none_iff.mpr hnot] at hid
          cases hid
        exact iff_of_true rfl fun h => h.1 husable
      | none =>
        rw [eq_comm]
        dsimp only
        rw [firstUsable_eq_none_iff, and_iff_right (sanitize_eq_none_iff.mp hid)]

/-- An identifier that a request brings is no generated one on every host. -/
theorem getD_generated_iff (pre : Str) {o o' : Option Str} :
    (∀ host, o.getD (RequestId.generated pre host) = o'.getD (RequestId.generated pre host)) ↔
      o = o' := by
  have hhosts : ∃ host host', RequestId.generated pre host ≠ RequestId.generated pre host' := by
    refine ⟨⟨0, 0, by decide⟩, ⟨1, 0, by decide⟩, fun heq => ?_⟩
    simp only [RequestId.generated, List.append_assoc, List.append_cancel_left_eq] at heq
    exact absurd heq (by decide)
  obtain ⟨host, host', hne⟩ := hhosts
  constructor
  · intro h
    cases o with
    | none =>
      cases o' with
      | none => rfl
      | some id => exact absurd ((h host).trans (h host').symm) hne
    | some id =>
      cases o' with
      | none => exact absurd ((h host).symm.trans (h host')) hne
      | some id' => exact congrArg some (h host)
  · rintro rfl host
    rfl

/-! ## Adapters -/

variable {serde : SerdeJson} {http : HttpCrate} {spec : RouteSpec}

theorem findSome?_filterMap {α β γ : Type} {f : α → Option β} {g : β → Option γ} {l : List α} :
    (l.filterMap f).findSome? g = l.findSome? fun a => (f a).bind g := by
  rw [← List.head?_filterMap, List.filterMap_filterMap, List.head?_filterMap]

theorem fnRequestId_eq (host : Host) (headers : BTreeMap Str Str) :
    OracleFn.fnRequestId host headers =
      (chosen (fnCandidates headers)).getD (OracleFn.generatedRequestId host) := by
  rw [OracleFn.fnRequestId, chosen, fnCandidates, findSome?_filterMap]
  rfl

theorem fnKeepsUsable_iff (request : ParsedRequest) :
    FnKeepsUsable serde request spec ↔ ¬ Shadowed (fnCandidates request.headers) := by
  have hid : (∀ host, OracleFn.fnRequestId host request.headers =
      (firstUsable (fnCandidates request.headers)).getD (OracleFn.generatedRequestId host)) ↔
        ¬ Shadowed (fnCandidates request.headers) := by
    simp only [fnRequestId_eq]
    rw [← chosen_eq_iff, ← getD_generated_iff "scintilla-fn-"]
    rfl
  rw [← hid]
  -- a payload that does not decode is answered under the same identifier
  cases hdecode : OracleFn.decodePayload serde request.headers
      (OracleFn.contentType request.headers) request.body with
  | error error =>
    constructor
    · intro h host
      have hget := h.rejected host _ (by rw [OracleFn.fnRequest, hdecode])
      exact Option.some.inj ((OracleFn.get_errorResponse _ _ _).symm.trans hget)
    · intro h
      refine ⟨fun host normalized hrequest => ?_, fun host response hrequest => ?_⟩
      · rw [OracleFn.fnRequest, hdecode] at hrequest
        cases hrequest
      · rw [OracleFn.fnRequest, hdecode] at hrequest
        rw [← Except.error.inj hrequest, OracleFn.get_errorResponse, h host]
  | ok payload =>
    constructor
    · intro h host
      exact h.dispatched host _ (by rw [OracleFn.fnRequest, hdecode])
    · intro h
      refine ⟨fun host normalized hrequest => ?_, fun host response hrequest => ?_⟩
      · rw [OracleFn.fnRequest, hdecode] at hrequest
        rw [← Except.ok.inj hrequest, h host]
      · rw [OracleFn.fnRequest, hdecode] at hrequest
        cases hrequest

theorem requestIdFromHeaders_eq (headers : HeaderMap) :
    Lambdas.requestIdFromHeaders http headers = chosen (httpCandidates http headers) := by
  rw [Lambdas.requestIdFromHeaders, chosen, httpCandidates, findSome?_filterMap]
  rfl

/-- The identifier of an event falls through to the headers if it is not usable. -/
theorem or_chosen_eq_iff (eventId : Option Str) (values : List Str) :
    (eventId.bind RequestId.sanitize).or (chosen values) =
        firstUsable (eventId.toList ++ values) ↔
      ¬ ((∀ id, eventId = some id → ¬ Usable id) ∧ Shadowed values) := by
  cases eventId with
  | none =>
    have hnone : ∀ id, none = some id → ¬ Usable id := by
      rintro id ⟨⟩
    rw [and_iff_right hnone, ← chosen_eq_iff]
    rfl
  | some id =>
    have hsome : (∀ id', some id = some id' → ¬ Usable id') ↔ RequestId.sanitize id = none := by
      rw [sanitize_eq_none_iff]
      exact ⟨fun h => h id rfl, fun h id' heq => Option.some.inj heq ▸ h⟩
    rw [hsome, Option.bind_some, Option.toList_some, List.singleton_append, firstUsable,
      List.findSome?_cons, ← firstUsable]
    cases hid : RequestId.sanitize id with
    | none =>
      rw [and_iff_right rfl, ← chosen_eq_iff]
      rfl
    | some usable => exact iff_of_true rfl fun h => (by cases h.1)

theorem httpKeepsUsable_iff (request : HttpRequest) :
    HttpKeepsUsable serde http request spec ↔
      ¬ ∃ eventId, DecodesWith serde http request spec eventId ∧
        (∀ id, eventId = some id → ¬ Usable id) ∧
        Shadowed (httpCandidates http request.headers) := by
  simp only [not_exists, not_and]
  refine forall_congr' fun eventId => forall_congr' fun hdecodes => ?_
  rw [← not_and, ← or_chosen_eq_iff, ← getD_generated_iff "scintilla-"]
  obtain ⟨body, payload, hbody, hlength, hdecode⟩ := hdecodes
  -- an event identifier comes before those of the headers
  have hrequest : ∀ host, ∃ normalized,
      Lambdas.httpRequest serde http host request spec = .ok normalized ∧
        normalized.requestId =
          ((eventId.bind RequestId.sanitize).or (chosen (httpCandidates http request.headers))).getD
            (Lambdas.generatedRequestId host) := by
    intro host
    rw [Lambdas.httpRequest_eq hbody hlength, hdecode]
    refine ⟨_, rfl, ?_⟩
    rw [Lambdas.httpRequestId, requestIdFromHeaders_eq]
    rfl
  refine forall_congr' fun host => ?_
  obtain ⟨normalized, hnormalized, hid⟩ := hrequest host
  rw [hnormalized]
  constructor
  · intro h
    exact hid.symm.trans (h normalized rfl)
  · rintro h _ ⟨⟩
    exact hid.trans h

/-- Both adapters keep every usable candidate, but for the headers behind one
    that is neither blank nor usable. -/
theorem keepsUsable_iff (serde : SerdeJson) (http : HttpCrate) (parsed : ParsedRequest)
    (request : HttpRequest) (spec : RouteSpec) :
    (FnKeepsUsable serde parsed spec ↔ ¬ Shadowed (fnCandidates parsed.headers)) ∧
    (HttpKeepsUsable serde http request spec ↔
      ¬ ∃ eventId, DecodesWith serde http request spec eventId ∧
        (∀ id, eventId = some id → ¬ Usable id) ∧
        Shadowed (httpCandidates http request.headers)) :=
  ⟨fnKeepsUsable_iff parsed, httpKeepsUsable_iff request⟩

/-- Exclamation marks hide the headers behind them. -/
theorem not_keepsUsable :
    ¬ FnKeepsUsable .compact
      ⟨BTreeMap.ofList [("fn-call-id", "!!!"), ("x-request-id", "r-1")], []⟩
      ⟨"cases", "POST", "/cases", "case_id", 4096, by decide⟩ ∧
    ¬ HttpKeepsUsable .compact .ascii
      ⟨"POST", "/cases", [("x-request-id", Utf8.encode "!!!"),
        ("x-correlation-id", Utf8.encode "c-1")], some []⟩
      ⟨"cases", "POST", "/cases", "case_id", 4096, by decide⟩ := by
  constructor
  · intro h
    have hfn := h.dispatched ⟨1, 5, by decide⟩ _ rfl
    revert hfn
    decide +kernel
  · intro h
    have hhttp := h none ⟨[], .object [], rfl, by decide, by decide⟩ ⟨1, 5, by decide⟩ _ rfl
    revert hhttp
    decide +kernel

end Adapters
