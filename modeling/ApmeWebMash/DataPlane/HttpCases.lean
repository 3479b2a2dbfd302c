-- SUMMARY: The `cases` call of the HTTP avenue: a body taken chunk by chunk under a cap is the whole body, if that is under it.
import ApmeWebMash.Crates
import ApmeWebMash.DataPlane.Http

/-! # The `cases` call over HTTP

`Transport::cases` sends one request and takes the body of the response as the
client yields it, in chunks of any size. The declared length is looked at first,
but it is the loop that keeps the body small. -/

namespace DataPlane.Http

def maxResponseBytes : Nat := 256 * 1024

/-- `validate_token`. -/
def validateToken (value : Str) : Except Error Unit :=
  if value = [] || Str.len value > 16 * 1024 || value.any Str.isWhitespace || value.any Str.isControl
  then .error .invalidCredential
  else .ok ()

/-- `reqwest::Response`: the head, what `chunk` yields until the end of the body,
    and whether it fails there instead. -/
structure Response where
  status : UInt16
  contentLength : Option UInt64
  chunks : List (List UInt8)
  fails : Bool
deriving DecidableEq

/-- `StatusCode::is_success`. -/
def Response.isSuccess (response : Response) : Bool :=
  200 ≤ response.status && response.status < 300

/-- What `cases` asks of `url` and `reqwest`: the URL with further path segments,
    if it is a base, and the response to a request with a bearer and a tenant. -/
structure Client where
  extendPath : Url → List Str → Option Url
  send : Url → Str → Str → Option Response

/-- One turn of the loop. -/
def takeChunk (body chunk : List UInt8) : Except Error (List UInt8) :=
  if Numeral.saturatingAdd body.length chunk.length > maxResponseBytes then .error .responseTooLarge
  else .ok (body ++ chunk)

/-- The body that the loop holds after some chunks. -/
def bodyAfter (chunks : List (List UInt8)) : Except Error (List UInt8) :=
  chunks.foldlM takeChunk []

/-- The loop. -/
def readBody (response : Response) : Except Error (List UInt8) := do
  let body ← bodyAfter response.chunks
  if response.fails then .error .unavailable else .ok body

/-- `serde_json::from_slice`, with its error. -/
def decodeBody (serde : SerdeJson) (body : List UInt8) : Except Error Json :=
  match serde.fromSlice body with
  | some v => .ok v
  | none => .error .rejected

/-- What `cases` makes of a response. -/
def readResponse (serde : SerdeJson) (response : Response) : Except Error Json :=
  if !response.isSuccess then .error .rejected
  else if response.contentLength.any fun length => length.toNat > maxResponseBytes then
    .error .responseTooLarge
  else do
    let body ← readBody response
    decodeBody serde body

/-- `Transport::cases`. -/
def cases (serde : SerdeJson) (uuid : UuidCrate) (client : Client) (transport : Transport)
    (bearerToken : Str) (tenantId : Uuid) : Except Error Json := do
  validateToken bearerToken
  match client.extendPath transport.base ["api", "v1", "cases"] with
  | none => .error .invalidConfiguration
  | some endpoint =>
    match client.send endpoint bearerToken (uuid.display tenantId) with
    | none => .error .unavailable
    | some response => readResponse serde response

/-! ## The loop -/

theorem takeChunk_eq {body chunk : List UInt8} :
    takeChunk body chunk =
      if (body ++ chunk).length ≤ maxResponseBytes then .ok (body ++ chunk)
      else .error .responseTooLarge := by
  have hiff : Numeral.saturatingAdd body.length chunk.length > maxResponseBytes ↔
      ¬ (body ++ chunk).length ≤ maxResponseBytes := by
    rw [gt_iff_lt, ← not_le, Numeral.saturatingAdd_le_iff (by decide), List.length_append]
  simp only [takeChunk, hiff, ite_not]

/-- The chunks are taken if all of them together fit. -/
theorem foldlM_takeChunk (body : List UInt8) (hbody : body.length ≤ maxResponseBytes)
    (chunks : List (List UInt8)) :
    chunks.foldlM takeChunk body =
      if (body ++ chunks.flatten).length ≤ maxResponseBytes then .ok (body ++ chunks.flatten)
      else .error .responseTooLarge := by
  induction chunks generalizing body with
  | nil =>
    rw [List.flatten_nil, List.append_nil, if_pos hbody]
    rfl
  | cons chunk chunks ih =>
    rw [List.foldlM_cons, takeChunk_eq, List.flatten_cons, ← List.append_assoc]
    by_cases hchunk : (body ++ chunk).length ≤ maxResponseBytes
    · rw [if_pos hchunk]
      exact ih _ hchunk
    · have hall : ¬ (body ++ chunk ++ chunks.flatten).length ≤ maxResponseBytes := by
        rw [List.length_append]
        omega
      rw [if_neg hchunk, if_neg hall]
      rfl

/-- However the body is cut. -/
theorem bodyAfter_eq (chunks : List (List UInt8)) :
    bodyAfter chunks =
      if chunks.flatten.length ≤ maxResponseBytes then .ok chunks.flatten
      else .error .responseTooLarge :=
  foldlM_takeChunk [] (Nat.zero_le _) chunks

theorem length_le_of_bodyAfter {chunks : List (List UInt8)} {body : List UInt8}
    (h : bodyAfter chunks = .ok body) : body.length ≤ maxResponseBytes := by
  rw [bodyAfter_eq] at h
  split at h
  · cases h
    assumption
  · cases h

theorem readBody_eq_ok {response : Response} {body : List UInt8} :
    readBody response = .ok body ↔
      response.fails = false ∧ response.chunks.flatten.length ≤ maxResponseBytes ∧
        body = response.chunks.flatten := by
  rw [readBody, bodyAfter_eq]
  split
  · rename_i hlength
    cases hfails : response.fails with
    | true =>
      refine iff_of_false ?_ (by simp)
      rintro ⟨⟩
    | false =>
      constructor
      · rintro ⟨⟩
        exact ⟨rfl, hlength, rfl⟩
      · rintro ⟨-, -, rfl⟩
        rfl
  · rename_i hlength
    refine iff_of_false ?_ fun h => hlength h.2.1
    rintro ⟨⟩

theorem readBody_tooLarge {response : Response}
    (h : maxResponseBytes < response.chunks.flatten.length) :
    readBody response = .error .responseTooLarge := by
  rw [readBody, bodyAfter_eq, if_neg (Nat.not_le.mpr h)]
  rfl

/-! ## The call -/

/-- The declared length is within the cap, if there is one. -/
def Response.DeclaresFit (response : Response) : Prop :=
  ∀ length, response.contentLength = some length → length.toNat ≤ maxResponseBytes

variable {serde : SerdeJson} {response : Response}

theorem any_contentLength_iff :
    (response.contentLength.any fun length => length.toNat > maxResponseBytes) = true ↔
      ¬ response.DeclaresFit := by
  simp only [Option.any_eq_true, decide_eq_true_eq, gt_iff_lt, Response.DeclaresFit, not_forall,
    Nat.not_le, exists_prop]

theorem decodeBody_eq_ok {body : List UInt8} {v : Json} :
    decodeBody serde body = .ok v ↔ serde.fromSlice body = some v := by
  rw [decodeBody]
  split
  · rename_i w hw
    rw [hw, Except.ok.injEq, Option.some.injEq]
  · rename_i hnone
    rw [hnone]
    refine iff_of_false ?_ ?_ <;> rintro ⟨⟩

/-- A response whose head is acceptable is its body. -/
theorem readResponse_of_head (hstatus : response.isSuccess) (hdeclared : response.DeclaresFit) :
    readResponse serde response = readBody response >>= decodeBody serde := by
  have hany := mt any_contentLength_iff.mp (not_not.mpr hdeclared)
  rw [readResponse, hstatus, Bool.not_true, if_neg Bool.false_ne_true, if_neg hany]

theorem head_of_readResponse {v : Json} (h : readResponse serde response = .ok v) :
    response.isSuccess ∧ response.DeclaresFit := by
  rw [readResponse] at h
  split at h
  · cases h
  · rename_i hstatus
    rw [Bool.not_eq_true, Bool.not_eq_false'] at hstatus
    split at h
    · cases h
    · rename_i hany
      rw [any_contentLength_iff, not_not] at hany
      exact ⟨hstatus, hany⟩

theorem readResponse_eq_ok {v : Json} :
    readResponse serde response = .ok v ↔
      response.isSuccess ∧ response.DeclaresFit ∧ response.fails = false ∧
        response.chunks.flatten.length ≤ maxResponseBytes ∧
        serde.fromSlice response.chunks.flatten = some v := by
  constructor
  · intro h
    obtain ⟨hstatus, hdeclared⟩ := head_of_readResponse h
    rw [readResponse_of_head hstatus hdeclared] at h
    cases hbody : readBody response with
    | error error =>
      rw [hbody] at h
      cases h
    | ok body =>
      obtain ⟨hfails, hlength, rfl⟩ := readBody_eq_ok.mp hbody
      rw [hbody] at h
      exact ⟨hstatus, hdeclared, hfails, hlength, decodeBody_eq_ok.mp h⟩
  · rintro ⟨hstatus, hdeclared, hfails, hlength, hv⟩
    rw [readResponse_of_head hstatus hdeclared, readBody_eq_ok.mpr ⟨hfails, hlength, rfl⟩]
    exact decodeBody_eq_ok.mpr hv

theorem readResponse_tooLarge (hstatus : response.isSuccess) (hdeclared : response.DeclaresFit)
    (h : maxResponseBytes < response.chunks.flatten.length) :
    readResponse serde response = .error .responseTooLarge := by
  rw [readResponse_of_head hstatus hdeclared, readBody_tooLarge h]
  rfl

/-- What happens to a response is the outcome of the call. -/
theorem cases_of_send {uuid : UuidCrate} {client : Client} {transport : Transport}
    {bearerToken : Str} {tenantId : Uuid} {endpoint : Url}
    (htoken : validateToken bearerToken = .ok ())
    (hendpoint : client.extendPath transport.base ["api", "v1", "cases"] = some endpoint)
    (hsend : client.send endpoint bearerToken (uuid.display tenantId) = some response) :
    cases serde uuid client transport bearerToken tenantId = readResponse serde response := by
  rw [cases, htoken, hendpoint]
  simp only [hsend]
  rfl

/-- The loop never holds more than 256 KiB, and the call succeeds exactly for a
    body within that. -/
theorem cases_cap (serde : SerdeJson) (uuid : UuidCrate) (client : Client) (transport : Transport)
    (bearerToken : Str) (tenantId : Uuid) (endpoint : Url) (response : Response)
    (htoken : validateToken bearerToken = .ok ())
    (hendpoint : client.extendPath transport.base ["api", "v1", "cases"] = some endpoint)
    (hsend : client.send endpoint bearerToken (uuid.display tenantId) = some response) :
    (∀ chunks body, chunks <+: response.chunks → bodyAfter chunks = .ok body →
      body.length ≤ 262144) ∧
    (∀ v, cases serde uuid client transport bearerToken tenantId = .ok v ↔
      response.isSuccess ∧
      (∀ length, response.contentLength = some length → length.toNat ≤ 262144) ∧
      response.fails = false ∧
      (response.chunks.map List.length).sum ≤ 262144 ∧
      serde.fromSlice response.chunks.flatten = some v) ∧
    (response.isSuccess →
      (∀ length, response.contentLength = some length → length.toNat ≤ 262144) →
      response.fails = false →
      262144 < (response.chunks.map List.length).sum →
      cases serde uuid client transport bearerToken tenantId = .error .responseTooLarge) := by
  rw [cases_of_send htoken hendpoint hsend, ← List.length_flatten]
  refine ⟨fun _ _ _ hbody => length_le_of_bodyAfter hbody, fun _ => readResponse_eq_ok, ?_⟩
  intro hstatus hdeclared _ hlength
  exact readResponse_tooLarge hstatus hdeclared hlength

/-- A server that declares no length and cuts `true` in two. -/
def cutClient : Client where
  extendPath url segments := some { url with path := segments.flatMap ('/' :: ·) }
  send _ _ _ := some ⟨200, none, [Utf8.encode "tr", Utf8.encode "ue"], false⟩

theorem cases_cap_cut :
    cases .compact .hyphenated cutClient
      ⟨⟨"http", [], none, some (.ipv4 ⟨127, 0, 0, 1⟩), "/", none, none⟩⟩ "token" 1 =
        .ok (.bool true) :=
  ((cases_cap .compact .hyphenated cutClient
    ⟨⟨"http", [], none, some (.ipv4 ⟨127, 0, 0, 1⟩), "/", none, none⟩⟩ "token" 1 _ _
    (by decide) rfl rfl).2.1 _).mpr
      ⟨by decide, fun _ h => (Option.some_ne_none _ h.symm).elim, rfl, by decide, by decide⟩

end DataPlane.Http
