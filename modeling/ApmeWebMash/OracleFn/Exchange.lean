-- SUMMARY: A call over the Fn socket, from the client that sends it to the answer that the client reads.
import ApmeWebMash.Adapters.ResponseIds
import ApmeWebMash.OracleFn.Adapter
import ApmeWebMash.OracleFn.Encoding

/-! # Calls over the Fn socket

The Fn runtime is the other party of the adapter. Its side is `invoke` and
`parse_response` of the process test: a request with a content length, the end
of the stream, and a response that is cut at the first empty line. A call that
keeps to the limits is answered with exactly what the dispatcher says to the
headers and the body that were sent. -/

namespace OracleFn

open Lambdas (FunctionResponse Host RouteSpec dispatchRequest routeVerdict)
open Separator (cutFirst splitAll)

/-! ## The client -/

/-- `ParsedResponse`. -/
structure ParsedResponse where
  outerStatus : Nat
  headers : BTreeMap Str Str
  body : Json
deriving DecidableEq

/-- One header line of `parse_response`. -/
def parseHeaderLine (headers : BTreeMap Str Str) (line : Str) : Option (BTreeMap Str Str) :=
  (Str.splitOnce ':' line).map fun parts =>
    headers.insert (Str.toAsciiLowercase (Str.trim parts.1)) (Str.trim parts.2)

/-- The status code in a status line: a `u16`. -/
def parseStatus (statusLine : Str) : Option Nat :=
  (Str.splitWhitespace statusLine)[1]?.bind (Numeral.fromStrRadix 10 65535)

/-- `parse_response`: `none` where an expectation of it fails. -/
def parseResponse (serde : SerdeJson) (bytes : List UInt8) : Option ParsedResponse := do
  let (head, bodyBytes) ← cutFirst [13, 10, 13, 10] bytes
  let head ← Utf8.decode head
  let lines := splitAll crlf head
  let outerStatus ← lines.head?.bind parseStatus
  let headers ← lines.tail.foldlM parseHeaderLine BTreeMap.empty
  let declared ← (headers.get "content-length").bind (Numeral.fromStrRadix 10 Numeral.usizeMax)
  if declared = bodyBytes.length then
    let body ← serde.fromSlice bodyBytes
    some ⟨outerStatus, headers, body⟩
  else none

/-- No `\r` and no `\n`. -/
def isOneLine (text : Str) : Bool := text.all fun c => c ≠ '\r' && c ≠ '\n'

/-- What `invoke` writes: `none` where it refuses a header. -/
def callBytes (headers : List (Str × Str)) (body : List UInt8) : Option (List UInt8) :=
  if headers.all fun header => isOneLine header.1 && isOneLine header.2 then
    some (Utf8.encode
      (("POST /call HTTP/1.1" : Str) ++ crlf ++ ("Host: localhost" : Str) ++ crlf ++
        (headers.flatMap fun header => header.1 ++ ':' :: ' ' :: header.2 ++ crlf) ++
        (("Content-Length: " : Str) ++ Numeral.decimal body.length) ++ crlf ++
        ("Connection: close" : Str) ++ crlf ++ crlf) ++ body)
  else none

/-- `invoke`: the request, the end of the stream, and the response. -/
def invoke (serde : SerdeJson) (host : Host) (spec : RouteSpec) (headers : List (Str × Str))
    (body : List UInt8) : Option ParsedResponse := do
  let bytes ← callBytes headers body
  let response ← handleStream serde host ⟨bytes, none⟩ spec
  parseResponse serde response.bytes

/-! ## The response is read back -/

/-- The fields of a response as the client holds them. -/
def readFields (fields : List (Str × Str)) : BTreeMap Str Str :=
  BTreeMap.ofList (fields.map fun field => (Str.toAsciiLowercase (Str.trim field.1), Str.trim field.2))

theorem isWhitespace_decimal (n : Nat) : ∀ c ∈ Numeral.decimal n, Str.isWhitespace c = false :=
  fun c hc => Str.isWhitespace_eq_false_of_isAlphanum (Str.isAlphanum_iff.mpr
    (.inr (Numeral.isDigit_decimal n c hc)))

theorem isControl_decimal (n : Nat) : ∀ c ∈ Numeral.decimal n, Str.isControl c = false := by
  intro c hc
  have hdigit := Str.isDigit_iff.mp (Numeral.isDigit_decimal n c hc)
  simp only [Str.isControl, Bool.or_eq_false_iff, Bool.and_eq_false_iff, decide_eq_false_iff_not]
  omega

theorem decimal_ne_nil (n : Nat) : Numeral.decimal n ≠ [] := (Numeral.writes_decimal n).ne_nil

theorem parseStatus_statusLine {outerStatus : Nat} (h : outerStatus ≤ 65535) :
    parseStatus (statusLine outerStatus) = some outerStatus := by
  have hversion : ("HTTP/1.1 " : Str) = ("HTTP/1.1" : Str) ++ [' '] := by decide +kernel
  have hne : ("HTTP/1.1" : Str) ≠ [] := by decide +kernel
  have hws : ∀ c ∈ ("HTTP/1.1" : Str), Str.isWhitespace c = false := Str.forall_mem (by decide +kernel)
  have hline : statusLine outerStatus =
      ("HTTP/1.1" : Str) ++ ' ' :: (Numeral.decimal outerStatus ++ ' ' :: reason outerStatus) :=
    calc statusLine outerStatus
      _ = ("HTTP/1.1 " : Str) ++ (Numeral.decimal outerStatus ++ ' ' :: reason outerStatus) :=
        List.append_assoc _ _ _
      _ = (("HTTP/1.1" : Str) ++ [' ']) ++ (Numeral.decimal outerStatus ++ ' ' :: reason outerStatus) :=
        congrArg (· ++ (Numeral.decimal outerStatus ++ ' ' :: reason outerStatus)) hversion
      _ = _ := List.append_assoc _ _ _
  have hwords : Str.splitWhitespace (statusLine outerStatus) =
      ("HTTP/1.1" : Str) :: Numeral.decimal outerStatus ::
        Str.splitWhitespace (reason outerStatus) := by
    rw [hline, Str.splitWhitespace_join_cons hne hws,
      Str.splitWhitespace_join_cons (decimal_ne_nil outerStatus) (isWhitespace_decimal outerStatus)]
  rw [parseStatus, hwords]
  exact (Numeral.writes_decimal outerStatus).fromStrRadix_eq (by decide) h

theorem parseHeaderLine_fieldLine {field : Str × Str} (h : ':' ∉ field.1)
    (headers : BTreeMap Str Str) :
    parseHeaderLine headers (fieldLine field) =
      some (headers.insert (Str.toAsciiLowercase (Str.trim field.1)) (Str.trim field.2)) := by
  have hspace : Str.trim (' ' :: field.2) = Str.trim field.2 :=
    Str.trim_append_left (l := [' ']) (List.forall_mem_singleton.mpr (by decide)) field.2
  rw [parseHeaderLine, fieldLine, Str.splitOnce_append h, Option.map_some]
  dsimp only
  rw [hspace]

theorem foldlM_parseHeaderLine {fields : List (Str × Str)} (h : ∀ field ∈ fields, ':' ∉ field.1) :
    (fields.map fieldLine).foldlM parseHeaderLine BTreeMap.empty = some (readFields fields) := by
  have hfold : ∀ headers : BTreeMap Str Str,
      (fields.map fieldLine).foldlM parseHeaderLine headers =
        some ((fields.map fun field =>
          (Str.toAsciiLowercase (Str.trim field.1), Str.trim field.2)).foldl
            (fun m e => m.insert e.1 e.2) headers) := by
    induction fields with
    | nil => exact fun headers => rfl
    | cons field fields ih =>
      intro headers
      rw [List.map_cons, List.foldlM_cons, parseHeaderLine_fieldLine (h field List.mem_cons_self)]
      exact ih (fun f hf => h f (List.mem_cons_of_mem _ hf)) _
  exact hfold BTreeMap.empty

/-- Bytes that read as a head and a body are parsed as such. -/
theorem parseResponse_of_readsAs {serde : SerdeJson} {bytes body : List UInt8} {outerStatus : Nat}
    {fields : List (Str × Str)} {value : Json} (h : ReadsAs bytes outerStatus fields body)
    (hstatus : outerStatus ≤ 65535)
    (hlength : (readFields fields).get "content-length" = some (Numeral.decimal body.length))
    (hfits : body.length ≤ Numeral.usizeMax) (hbody : serde.fromSlice body = some value) :
    parseResponse serde bytes = some ⟨outerStatus, readFields fields, value⟩ := by
  obtain ⟨head, hcut, hsplit⟩ := h.cut
  have hdeclared := (Numeral.writes_decimal body.length).fromStrRadix_eq (by decide) hfits
  rw [parseResponse, hcut]
  simp only [Option.bind_eq_bind, Option.bind_some, Utf8.decode_encode, hsplit, List.head?_cons,
    List.tail_cons, parseStatus_statusLine hstatus, foldlM_parseHeaderLine h.colon_not_mem, hlength,
    hdeclared, ↓reduceIte, hbody]

variable {serde : SerdeJson} {host : Host} {spec : RouteSpec} {response : FunctionResponse}

/-- In lower case and without repetition, the client finds the fields that were
    written, with the white space around their values trimmed. -/
theorem get_readFields {fields : List (Str × Str)}
    (hname : ∀ field ∈ fields, validHeaderName field.1 ∧ ∀ c ∈ field.1, c.isUpper = false)
    (hnodup : (fields.map fun field => Str.toAsciiLowercase field.1).Nodup) (key value : Str) :
    (readFields fields).get key = some value ↔
      ∃ written, (key, written) ∈ fields ∧ Str.trim written = value := by
  have htrim : ∀ field ∈ fields, Str.trim field.1 = field.1 := by
    intro field hfield
    refine Str.trim_eq_self fun c hc => ?_
    have hchar := validHeaderName_chars (hname field hfield).1 c hc
    rw [Bool.or_eq_true, beq_iff_eq] at hchar
    rcases hchar with hchar | rfl
    · exact Str.isWhitespace_eq_false_of_isAlphanum hchar
    · decide
  -- names come back as they were written, values are trimmed
  have hfields : (fields.map fun field =>
      (Str.toAsciiLowercase (Str.trim field.1), Str.trim field.2)) =
      fields.map fun field => (field.1, Str.trim field.2) := by
    refine List.map_congr_left fun field hfield => ?_
    rw [htrim field hfield, Str.toAsciiLowercase_eq_self (hname field hfield).2]
  have hkeys : (fields.map Prod.fst).Nodup := by
    rwa [List.map_congr_left fun field hfield =>
      Str.toAsciiLowercase_eq_self (hname field hfield).2] at hnodup
  have hmapped : ((fields.map fun field => (field.1, Str.trim field.2)).map Prod.fst).Nodup := by
    rwa [List.map_map]
  rw [readFields, hfields, BTreeMap.get_ofList hmapped, BTreeMap.lookupEntries_map,
    Option.map_eq_some_iff]
  refine exists_congr fun written => and_congr_left fun _ => ?_
  exact ⟨BTreeMap.mem_of_lookupEntries, BTreeMap.lookupEntries_of_mem hkeys⟩

theorem isUpper_lastFields {field : Str × Str} {body : List UInt8} (h : field ∈ lastFields body) :
    ∀ c ∈ field.1, c.isUpper = false := by
  have hlast : ∀ name ∈ (["content-length", "connection"] : List Str),
      name.all fun c => decide (c.isUpper = false) := by decide
  exact Str.forall_mem (hlast field.1 (List.mem_map_of_mem (f := Prod.fst) h))

/-- `serde_json` writes a document to a vector, whose length is a `usize`, and
    reads it back. -/
def Serializes (serde : SerdeJson) (value : Json) : Prop :=
  ∃ bytes, serde.toVec value = some bytes ∧ bytes.length ≤ Numeral.usizeMax ∧
    serde.fromSlice bytes = some value

/-- The names of the fields that the writer sets itself. -/
def ownNames : List Str := ["content-length", "connection", "fn-http-status", "fn-fdk-version"]

/-- What the client holds of a response: the status and the document of the
    function, and under every other name what the function said there, or the
    default content type, if it can be a header value. -/
structure Delivers (response : FunctionResponse) (parsed : ParsedResponse) : Prop where
  status : parsed.headers.get "fn-http-status" = some (Numeral.decimal response.statusCode)
  body : parsed.body = response.body
  get_header : ∀ name, name ∉ ownNames → ∀ value, parsed.headers.get name = some value ↔
    ∃ written, (response.headers.orInsert "content-type" "application/json").get name = some written ∧
      validHeaderName name ∧ validHeaderValue written ∧ Str.trim written = value

/-- The client reads back what the writer has written. -/
theorem parseResponse_writeFnResponse {outerStatus : Nat} (hstatus : outerStatus ≤ 65535)
    (hlower : ∀ header ∈ response.headers.entries, ∀ c ∈ header.1, c.isUpper = false)
    (hbody : Serializes serde response.body) :
    ∃ parsed, parseResponse serde (writeFnResponse serde outerStatus response).bytes = some parsed ∧
      parsed.outerStatus = outerStatus ∧ Delivers response parsed := by
  obtain ⟨bytes, hbytes, hfits, hread⟩ := hbody
  have hwritten : (writeFnResponse serde outerStatus response).body = bytes := by
    rw [writeFnResponse, writeHttpResponse, hbytes, Option.getD_some]
  have hvalid : ∀ header ∈ (writeFnResponse serde outerStatus response).headers,
      validHeaderName header.1 ∧ validHeaderValue header.2 := fun header hheader =>
    (mem_writeFnResponse.mp hheader).2
  have hnames : ∀ field ∈ (writeFnResponse serde outerStatus response).fields,
      validHeaderName field.1 ∧ ∀ c ∈ field.1, c.isUpper = false := by
    intro field hfield
    rcases List.mem_append.mp hfield with hfield | hfield
    · exact ⟨(hvalid field hfield).1,
        isUpper_fnHeaders hlower field (List.mem_of_mem_filter hfield)⟩
    · exact ⟨(mem_lastFields hfield).1, isUpper_lastFields hfield⟩
  have hget := get_readFields hnames (nodup_fields hlower List.filter_sublist)
  -- the client trusts this length for the body
  have hlength : (readFields (writeFnResponse serde outerStatus response).fields).get
      "content-length" = some (Numeral.decimal
        (writeFnResponse serde outerStatus response).body.length) :=
    (hget _ _).mpr ⟨_, List.mem_append_right _ List.mem_cons_self,
      Str.trim_eq_self (isWhitespace_decimal _)⟩
  refine ⟨_, parseResponse_of_readsAs (readsAs_fields hvalid) hstatus hlength
    (hwritten ▸ hfits) (hwritten ▸ hread), rfl, ?_⟩
  exact {
    status := (hget _ _).mpr ⟨_, List.mem_append_left _ (status_mem_writeFnResponse _ _ _),
      Str.trim_eq_self (isWhitespace_decimal _)⟩
    body := rfl
    get_header := by
      intro name hname value
      have hlast : ∀ written, (name, written) ∉
          lastFields (writeFnResponse serde outerStatus response).body := by
        intro written hmem
        have hown : ∀ key ∈ (["content-length", "connection"] : List Str), key ∈ ownNames := by decide
        exact hname (hown name (List.mem_map_of_mem (f := Prod.fst) hmem))
      have hown : name ∉ (ownFields response bytes).map Prod.fst := hname
      rw [hget]
      refine exists_congr fun written => ?_
      rw [WireResponse.fields, List.mem_append, or_iff_left (hlast written), mem_writeFnResponse,
        get_fnHeaders_of_not_own hown, and_assoc, and_assoc] }


/-! ## The answer -/

/-- The answer of `handle_stream` to a request that it has read. -/
def answerTo (serde : SerdeJson) (host : Host) (spec : RouteSpec) (request : ParsedRequest) :
    FunctionResponse :=
  match fnRequest serde host request spec with
  | .error response => response
  | .ok normalized => (dispatchRequest normalized spec).response

theorem fnAnswer_of_read {source : Source} {request : ParsedRequest} {rest : Source}
    (h : (readRequest spec.maxEventBytes).run source = (.ok (some request), rest)) :
    fnAnswer serde host source spec = some (200, answerTo serde host spec request) := by
  rw [fnAnswer, fnInput, h, answerTo]
  dsimp only
  cases fnRequest serde host request spec <;> rfl

/-! ## Calls -/

/-- What a client may put into a call: header fields that the reader accepts,
    none of which says how the body is delimited, within the limits of the head. -/
structure FnCall where
  headers : List HeaderField
  body : List UInt8
  not_framing : ∀ field ∈ headers,
    field.key ≠ "content-length" ∧ field.key ≠ "transfer-encoding"
  headers_le : headers.length ≤ 124
  bytes_le : 67 + (Numeral.decimal body.length).length +
    (headers.map fun field => Str.len field.line + 1).sum ≤ 65536

namespace FnCall

/-- The headers as they are handed to `invoke`. -/
def given (call : FnCall) : List (Str × Str) :=
  call.headers.map fun field => (field.name, field.value)

/-- A field with the space that `invoke` puts before its value. -/
def spaced (field : HeaderField) : HeaderField where
  name := field.name
  value := ' ' :: field.value
  name_ne_nil := field.name_ne_nil
  name_chars := field.name_chars
  value_chars := List.forall_mem_cons.mpr ⟨by decide, field.value_chars⟩

def hostField : HeaderField where
  name := "Host"
  value := " localhost"
  name_ne_nil := by decide
  name_chars := Str.forall_mem (by decide)
  value_chars := Str.forall_mem (by decide)

theorem contentLength_ne_nil : ("Content-Length" : Str) ≠ [] := by decide

theorem contentLength_chars : ∀ c ∈ ("Content-Length" : Str), isHeaderNameChar c :=
  Str.forall_mem (by decide)

def lengthField (length : Nat) : HeaderField where
  name := "Content-Length"
  value := ' ' :: Numeral.decimal length
  name_ne_nil := contentLength_ne_nil
  name_chars := contentLength_chars
  value_chars := List.forall_mem_cons.mpr ⟨by decide, isControl_decimal length⟩

def connectionField : HeaderField where
  name := "Connection"
  value := " close"
  name_ne_nil := by decide
  name_chars := Str.forall_mem (by decide)
  value_chars := Str.forall_mem (by decide)

/-- The fields of the request, with those of `invoke`. -/
def fields (call : FnCall) : List HeaderField :=
  hostField :: (call.headers.map spaced ++ [lengthField call.body.length, connectionField])

theorem len_line_spaced (field : HeaderField) :
    Str.len (spaced field).line = Str.len field.line + 1 := by
  have hspace : Char.utf8Size ' ' = 1 := by decide
  simp only [HeaderField.line, spaced, Str.len_append, Str.len_cons, hspace]
  omega

theorem len_line_lengthField (length : Nat) :
    Str.len (lengthField length).line = 16 + (Numeral.decimal length).length := by
  have hascii : Str.len (Numeral.decimal length) = (Numeral.decimal length).length :=
    Str.len_of_ascii fun c hc => by
      have hdigit := Str.isDigit_iff.mp (Numeral.isDigit_decimal length c hc)
      omega
  have hname : Str.len (("Content-Length" : Str) ++ [':', ' ']) = 16 := by decide +kernel
  have hline : (lengthField length).line =
      (("Content-Length" : Str) ++ [':', ' ']) ++ Numeral.decimal length := by
    rw [List.append_assoc]
    rfl
  rw [hline, Str.len_append, hname, hascii]

theorem sum_len_fields (call : FnCall) :
    (call.fields.map fun field => Str.len field.line).sum = 48 +
      (Numeral.decimal call.body.length).length +
      (call.headers.map fun field => Str.len field.line + 1).sum := by
  have hhost : Str.len hostField.line = 15 := by decide +kernel
  have hconnection : Str.len connectionField.line = 17 := by decide +kernel
  simp only [fields, List.map_cons, List.map_append, List.map_map, List.map_nil, List.sum_cons,
    List.sum_append, List.sum_nil, hhost, hconnection, len_line_lengthField]
  rw [show (fun field => Str.len field.line) ∘ spaced = fun field => Str.len field.line + 1 from
    funext len_line_spaced]
  omega

/-- The only field about the body is the content length. -/
theorem declaredBy (call : FnCall) : (Framing.contentLength call.body).DeclaredBy call.fields := by
  have hhost : hostField.key ≠ "content-length" ∧ hostField.key ≠ "transfer-encoding" := by decide
  have hconnection : connectionField.key ≠ "content-length" ∧
      connectionField.key ≠ "transfer-encoding" := by decide
  have hlength : (lengthField call.body.length).key = ("content-length" : Str) ∧
      (lengthField call.body.length).key ≠ "transfer-encoding" := by
    change Str.toAsciiLowercase ("Content-Length" : Str) = _ ∧
      Str.toAsciiLowercase ("Content-Length" : Str) ≠ _
    decide
  have hheaders : ∀ field ∈ call.headers.map spaced,
      field.key ≠ "content-length" ∧ field.key ≠ "transfer-encoding" := by
    intro field hfield
    obtain ⟨given, hgiven, rfl⟩ := List.mem_map.mp hfield
    exact call.not_framing given hgiven
  have htrim : Str.trim (lengthField call.body.length).value = Numeral.decimal call.body.length := by
    change Str.trim ([' '] ++ Numeral.decimal call.body.length) = _
    rw [Str.trim_append_left (List.forall_mem_singleton.mpr (by decide)),
      Str.trim_eq_self (isWhitespace_decimal _)]
  refine ⟨⟨lengthField call.body.length, ?_, ?_⟩, ?_⟩
  · have hnone : (call.headers.map spaced).filter (fun field => field.key = ("content-length" : Str)) =
        [] :=
      List.filter_eq_nil_iff.mpr fun field hfield h =>
        (hheaders field hfield).1 (of_decide_eq_true h)
    simp only [fields, List.filter_cons, List.filter_append, hnone, decide_eq_false hhost.1,
      decide_eq_true hlength.1, decide_eq_false hconnection.1, List.filter_nil, List.nil_append,
      Bool.false_eq_true, ↓reduceIte]
  · rw [htrim]
    exact Numeral.writes_decimal _
  · simp only [fields, List.forall_mem_cons, List.forall_mem_append]
    exact ⟨hhost.2, fun field hfield => (hheaders field hfield).2, hlength.2, hconnection.2, by simp⟩

theorem isToken_call : IsToken "/call" :=
  ⟨by decide, Str.forall_mem (by decide)⟩

theorem isToken_version : IsToken "HTTP/1.1" :=
  ⟨by decide, Str.forall_mem (by decide)⟩

theorem version_isHttp : Str.startsWith "HTTP/1.1" "HTTP/1." := by decide

/-- The request that `invoke` sends. -/
def message (call : FnCall) : Message where
  method := "POST"
  target := "/call"
  version := "HTTP/1.1"
  fields := call.fields
  framing := .contentLength call.body
  method_token := isToken_post
  target_token := isToken_call
  version_token := isToken_version
  version_http := version_isHttp
  fields_le := by
    have hle := call.headers_le
    simp only [fields, List.length_cons, List.length_append, List.length_map, List.length_nil]
    omega
  bytes_le := by
    have hline : Str.len (("POST" : Str) ++ ' ' :: ("/call" : Str) ++ ' ' :: ("HTTP/1.1" : Str)) = 19 := by
      decide +kernel
    have hle := call.bytes_le
    rw [hline, sum_len_fields]
    omega
  declared := call.declaredBy

/-- The client refuses none of the headers. -/
theorem isOneLine_given (call : FnCall) :
    call.given.all fun header => isOneLine header.1 && isOneLine header.2 := by
  refine List.all_eq_true.mpr fun header hheader => ?_
  obtain ⟨field, -, rfl⟩ := List.mem_map.mp hheader
  have hbreak : ∀ c : Char, c = '\r' ∨ c = '\n' → ¬ isHeaderNameChar c ∧ Str.isControl c := by
    rintro c (rfl | rfl) <;> decide
  rw [Bool.and_eq_true, isOneLine, isOneLine, List.all_eq_true, List.all_eq_true]
  refine ⟨fun c hc => ?_, fun c hc => ?_⟩
  · by_contra hne
    exact (hbreak c (by simpa [or_iff_not_imp_left] using hne)).1 (field.name_chars c hc)
  · by_contra hne
    have hcontrol := (hbreak c (by simpa [or_iff_not_imp_left] using hne)).2
    rw [field.value_chars c hc] at hcontrol
    cases hcontrol

theorem encode_flatMap {α : Type} (f : α → Str) (items : List α) :
    Utf8.encode (items.flatMap f) = items.flatMap fun item => Utf8.encode (f item) := by
  rw [Utf8.encode, List.flatMap_assoc]
  rfl

theorem callBytes_given (call : FnCall) :
    callBytes call.given call.body = some call.message.bytes := by
  have hrequest : call.message.requestLine = "POST /call HTTP/1.1" := by
    change ("POST" : Str) ++ ' ' :: ("/call" : Str) ++ ' ' :: ("HTTP/1.1" : Str) = _
    decide +kernel
  have hhost : hostField.line = "Host: localhost" := by decide +kernel
  have hconnection : connectionField.line = "Connection: close" := by decide +kernel
  have hlength : (lengthField call.body.length).line =
      ("Content-Length: " : Str) ++ Numeral.decimal call.body.length := by
    have hname : ("Content-Length: " : Str) = ("Content-Length" : Str) ++ [':', ' '] := by
      decide +kernel
    rw [hname, List.append_assoc]
    rfl
  have hgiven : (call.given.flatMap fun header => header.1 ++ ':' :: ' ' :: header.2 ++ crlf) =
      (call.headers.map spaced).flatMap fun field => field.line ++ crlf := by
    rw [given, List.flatMap_map, List.flatMap_map]
    rfl
  have hfields : Utf8.encode (call.fields.flatMap fun field => field.line ++ crlf) =
      call.message.fields.flatMap fun field => Utf8.encode (field.line ++ crlf) :=
    encode_flatMap _ call.fields
  rw [callBytes, if_pos call.isOneLine_given, hgiven, Message.bytes, ← hfields, hrequest, fields,
    List.flatMap_cons, List.flatMap_append, List.flatMap_cons, List.flatMap_cons, List.flatMap_nil,
    hhost, hlength, hconnection]
  simp only [Utf8.encode_append, List.append_assoc, List.append_nil]
  rfl

/-- The headers of a call as the adapter holds them. -/
def headerMap (call : FnCall) : BTreeMap Str Str := call.fields.foldl addField BTreeMap.empty

/-- The request that the adapter reads. -/
def request (call : FnCall) : ParsedRequest := ⟨call.headerMap, call.body⟩

end FnCall

/-! ## The exchange -/

theorem exists_invoke (call : FnCall) (hbody : call.body.length ≤ spec.maxEventBytes)
    (hserde : Serializes serde (answerTo serde host spec call.request).body) :
    ∃ parsed, invoke serde host spec call.given call.body = some parsed ∧
      parsed.outerStatus = 200 ∧ Delivers (answerTo serde host spec call.request) parsed := by
  have hread := run_readRequest_bytes call.message spec.maxEventBytes_le hbody [] none
  rw [List.append_nil] at hread
  have hanswer : fnAnswer serde host ⟨call.message.bytes, none⟩ spec =
      some (200, answerTo serde host spec call.request) := fnAnswer_of_read hread
  obtain ⟨id, hid⟩ := Adapters.identified_fnAnswer hanswer
  obtain ⟨parsed, hparsed, hstatus, hdelivers⟩ :=
    parseResponse_writeFnResponse (by decide : 200 ≤ 65535) hid.isUpper_entries hserde
  refine ⟨parsed, ?_, hstatus, hdelivers⟩
  rw [invoke, call.callBytes_given, Option.bind_eq_bind, Option.bind_some, handleStream, hanswer]
  exact hparsed

/-- A call is answered, under the outer status 200, with what the adapter says to
    the fields and the body that were sent. -/
theorem invoke_returns (call : FnCall) (hbody : call.body.length ≤ spec.maxEventBytes)
    (hserde : Serializes serde (answerTo serde host spec call.request).body) :
    (∀ key, call.request.headers.get key = foldedValue key call.fields) ∧
      ∃ parsed, invoke serde host spec call.given call.body = some parsed ∧
        parsed.outerStatus = 200 ∧ Delivers (answerTo serde host spec call.request) parsed :=
  ⟨fun key => get_fields call.fields key, exists_invoke call hbody hserde⟩

theorem requestUrl_ne_nil : ("Fn-Http-Request-Url" : Str) ≠ [] := by decide

theorem requestUrl_chars : ∀ c ∈ ("Fn-Http-Request-Url" : Str), isHeaderNameChar c :=
  Str.forall_mem (by decide)

/-- A call with a logical path, an identifier and a document. -/
def sampleCall : FnCall where
  headers := [
    ⟨"Fn-Call-Id", "call-1", by decide, Str.forall_mem (by decide), Str.forall_mem (by decide)⟩,
    ⟨"Fn-Http-Request-Url", "http://f/cases", requestUrl_ne_nil, requestUrl_chars,
      Str.forall_mem (by decide)⟩]
  body := Utf8.encode "\x7b\"case_id\":\"1\"\x7d"
  not_framing := by decide
  headers_le := by decide
  bytes_le := by decide +kernel

def sampleSpec : RouteSpec := ⟨"export", "POST", "/cases", "case_id", 64, by decide⟩

theorem serializes_compact {value : Json} (h : value.WellFormed)
    (hfits : (Utf8.encode (Json.render value)).length ≤ Numeral.usizeMax) :
    Serializes .compact value :=
  ⟨_, rfl, hfits, SerdeJson.compact_undoes h _ rfl⟩

theorem body_answerTo_sample :
    (answerTo .compact ⟨1, 5, by decide⟩ sampleSpec sampleCall.request).body =
      Lambdas.acceptedBody sampleSpec "call-1" := by decide +kernel

theorem serializes_sample :
    Serializes .compact (answerTo .compact ⟨1, 5, by decide⟩ sampleSpec sampleCall.request).body := by
  have hfits : (Utf8.encode (Json.render (Lambdas.acceptedBody sampleSpec "call-1"))).length ≤ 4096 := by
    decide +kernel
  rw [body_answerTo_sample]
  exact serializes_compact ⟨trivial, trivial, trivial, trivial, trivial⟩ (hfits.trans (by decide))

theorem invoke_returns_sample :
    (∀ key, sampleCall.request.headers.get key = foldedValue key sampleCall.fields) ∧
      ∃ parsed, invoke .compact ⟨1, 5, by decide⟩ sampleSpec sampleCall.given sampleCall.body =
          some parsed ∧
        parsed.outerStatus = 200 ∧
        Delivers (answerTo .compact ⟨1, 5, by decide⟩ sampleSpec sampleCall.request) parsed :=
  invoke_returns sampleCall (by decide +kernel) serializes_sample

/-- What `assert_accepted` asserts. -/
structure IsAccepted (parsed : ParsedResponse) (handler requestId : Str) : Prop where
  outer_status : parsed.outerStatus = 200
  status : parsed.headers.get "fn-http-status" = some "202"
  header_id : parsed.headers.get "x-request-id" = some requestId
  accepted : parsed.body.get "accepted" = some (.bool true)
  handler : parsed.body.get "handler" = some (.string handler)
  body_id : parsed.body.get "request_id" = some (.string requestId)

/-- The payload of a request is what the route asks for. -/
def Fulfils (serde : SerdeJson) (spec : RouteSpec) (request : ParsedRequest) : Prop :=
  ∃ payload, decodePayload serde request.headers (contentType request.headers) request.body =
      .ok payload ∧
    routeVerdict spec ((firstHeader request.headers ["fn-http-method"]).getD spec.method)
      (((firstHeader request.headers ["fn-http-request-url"]).map requestPath).getD spec.path)
      payload = .accepted

/-- The answer is the one to an accepted request, or has another status. -/
theorem answerTo_cases (serde : SerdeJson) (host : Host) (request : ParsedRequest)
    (hbody : request.body.length ≤ spec.maxEventBytes) :
    (answerTo serde host spec request).headers.get "x-request-id" =
        some (fnRequestId host request.headers) ∧
      (Fulfils serde spec request ∧
          (answerTo serde host spec request).statusCode = 202 ∧
          (answerTo serde host spec request).body =
            Lambdas.acceptedBody spec (fnRequestId host request.headers) ∨
        ¬ Fulfils serde spec request ∧
          (answerTo serde host spec request).statusCode ∈ [400, 404, 405, 413, 422]) := by
  rw [answerTo, fnRequest, Fulfils]
  cases decodePayload serde request.headers (contentType request.headers) request.body with
  | error error =>
    refine ⟨get_errorResponse _ _ _, .inr ⟨?_, List.mem_cons_self⟩⟩
    rintro ⟨payload, hpayload, -⟩
    cases hpayload
  | ok payload =>
    dsimp only
    refine ⟨Lambdas.get_dispatchRequest _ _, ?_⟩
    rw [Lambdas.dispatchRequest_response hbody]
    simp only [Except.ok.injEq, exists_eq_left']
    -- of the five verdicts one accepts
    cases routeVerdict spec ((firstHeader request.headers ["fn-http-method"]).getD spec.method)
      (((firstHeader request.headers ["fn-http-request-url"]).map requestPath).getD spec.path)
      payload with
    | accepted => exact .inl ⟨rfl, rfl, rfl⟩
    | tooLarge | notFound | methodNotAllowed | missingField =>
      refine .inr ⟨fun h => (by cases h), ?_⟩
      rw [Lambdas.withRequestId, Lambdas.Verdict.answer, Lambdas.functionResponse_statusCode]
      decide

/-- A call is accepted exactly with a payload that the route asks for, under the
    route's method and path, and then under the identifier of its headers. -/
theorem invoke_accepted_iff (call : FnCall) (hbody : call.body.length ≤ spec.maxEventBytes)
    (hserde : Serializes serde (answerTo serde host spec call.request).body) (handler id : Str) :
    (∃ parsed, invoke serde host spec call.given call.body = some parsed ∧
        IsAccepted parsed handler id) ↔
      Fulfils serde spec call.request ∧ handler = spec.handler ∧
        id = fnRequestId host call.request.headers := by
  obtain ⟨parsed, hparsed, houter, hdelivers⟩ := exists_invoke call hbody hserde
  obtain ⟨hid, hcases⟩ := answerTo_cases serde host call.request hbody
  have hheader : parsed.headers.get "x-request-id" = some (fnRequestId host call.request.headers) := by
    have hvalid := valid_fnRequestId host call.request.headers
    refine (hdelivers.get_header _ (by decide) _).mpr ⟨_, ?_, by decide,
      Adapters.validHeaderValue_of_valid hvalid, Str.trim_eq_self fun c hc => ?_⟩
    · have hne : ("x-request-id" : Str) ≠ "content-type" := by decide
      rw [BTreeMap.get_orInsert, if_neg hne, hid]
    · obtain ⟨hlow, hhigh⟩ := hvalid.visible c hc
      exact Str.isWhitespace_eq_false_of_visible hlow (by omega)
  rw [hparsed]
  simp only [Option.some.injEq, exists_eq_left']
  constructor
  · intro h
    have hsame := h.header_id
    rw [hheader] at hsame
    rcases hcases with ⟨hfulfils, -, hbody⟩ | ⟨-, hstatus⟩
    · have hhandler := h.handler
      rw [hdelivers.body, hbody] at hhandler
      exact ⟨hfulfils, (Json.string.inj (Option.some.inj hhandler)).symm, (Option.some.inj hsame).symm⟩
    -- no refusal has the status that is asked for
    · have hother : ∀ status ∈ [400, 404, 405, 413, 422], Numeral.decimal status ≠ "202" := by decide
      exact absurd (Option.some.inj (hdelivers.status.symm.trans h.status)) (hother _ hstatus)
  · rintro ⟨hfulfils, rfl, rfl⟩
    rcases hcases with ⟨-, hstatus, hbody⟩ | ⟨hnot, -⟩
    · have hget := hdelivers.status
      rw [hstatus] at hget
      exact ⟨houter, hget, hheader, by rw [hdelivers.body, hbody]; rfl,
        by rw [hdelivers.body, hbody]; rfl, by rw [hdelivers.body, hbody]; rfl⟩
    · exact absurd hfulfils hnot

theorem invoke_accepted_iff_sample :
    (∃ parsed, invoke .compact ⟨1, 5, by decide⟩ sampleSpec sampleCall.given sampleCall.body =
          some parsed ∧ IsAccepted parsed "export" "call-1") ↔
      Fulfils .compact sampleSpec sampleCall.request ∧ ("export" : Str) = sampleSpec.handler ∧
        ("call-1" : Str) = fnRequestId ⟨1, 5, by decide⟩ sampleCall.request.headers :=
  invoke_accepted_iff sampleCall (by decide +kernel) serializes_sample "export" "call-1"

end OracleFn
