-- SUMMARY: The response writer of the Oracle/Fn adapter.
import ApmeWebMash.Crates
import ApmeWebMash.Lambdas.Dispatch
import ApmeWebMash.OracleFn.HttpStream

/-! # Responses on the Fn socket

The writing half of `support/oracle_fn/http_stream.rs`. The status of the
function travels in a header, inside an outer response that tells the Fn runtime
whether the call was carried out. -/

namespace OracleFn

open Lambdas (FunctionResponse)

def adapterVersion : Str := "scintilla-rust/0.3.0"

/-- `valid_header_name`. -/
def validHeaderName (value : Str) : Bool :=
  value ≠ [] && value.all fun c => c.isAlphanum || c == '-'

/-- `valid_header_value`. -/
def validHeaderValue (value : Str) : Bool :=
  !value.any fun c => c == '\r' || c == '\n'

/-- A response on the socket: the headers that are written, without the two that
    every response ends with. -/
structure WireResponse where
  status : Nat
  headers : List (Str × Str)
  body : List UInt8
deriving DecidableEq

/-- `write_http_response`. -/
def writeHttpResponse (status : Nat) (headers : BTreeMap Str Str) (body : List UInt8) :
    WireResponse where
  status := status
  headers := headers.entries.filter fun header =>
    validHeaderName header.1 && validHeaderValue header.2
  body := body

/-- The reason phrase of an outer status. -/
def reason (status : Nat) : Str :=
  match status with
  | 200 => "OK"
  | 502 => "Bad Gateway"
  | _ => "Response"

/-- The bytes that are written. -/
def WireResponse.bytes (response : WireResponse) : List UInt8 :=
  let statusLine : Str :=
    ("HTTP/1.1 " : Str) ++ Numeral.decimal response.status ++ ' ' :: reason response.status ++ crlf
  let headerLines : Str :=
    response.headers.flatMap fun header => header.1 ++ ':' :: ' ' :: header.2 ++ crlf
  let lastLines : Str :=
    ("content-length: " : Str) ++ Numeral.decimal response.body.length ++ crlf ++
      ("connection: close" : Str) ++ crlf ++ crlf
  Utf8.encode (statusLine ++ headerLines ++ lastLines) ++ response.body

/-- The header map that `write_fn_response` hands on. -/
def fnHeaders (response : FunctionResponse) : BTreeMap Str Str :=
  let headers := (response.headers.remove "content-length").remove "connection"
  let headers := headers.orInsert "content-type" "application/json"
  let headers := headers.insert "fn-http-status" (Numeral.decimal response.statusCode)
  headers.insert "fn-fdk-version" adapterVersion

/-- `write_fn_response`. -/
def writeFnResponse (serde : SerdeJson) (outerStatus : Nat) (response : FunctionResponse) :
    WireResponse :=
  writeHttpResponse outerStatus (fnHeaders response)
    ((serde.toVec response.body).getD (Utf8.encode "\x7b\"error\":\"serialization_failed\"\x7d"))

theorem validHeaderValue_iff {value : Str} :
    validHeaderValue value ↔ '\r' ∉ value ∧ '\n' ∉ value := by
  simp only [validHeaderValue, Bool.not_eq_true', List.any_eq_false, Bool.or_eq_true, beq_iff_eq,
    not_or, imp_and, forall_and]
  exact and_congr List.forall_mem_ne' List.forall_mem_ne'

theorem validHeaderValue_decimal (n : Nat) : validHeaderValue (Numeral.decimal n) :=
  have hdigits := Numeral.writes_decimal n
  validHeaderValue_iff.mpr ⟨hdigits.not_mem (by decide), hdigits.not_mem (by decide)⟩

/-- The status of the function is the one of its response. -/
theorem get_fnHeaders_status (response : FunctionResponse) :
    (fnHeaders response).get "fn-http-status" = some (Numeral.decimal response.statusCode) := by
  have hne : ("fn-http-status" : Str) ≠ "fn-fdk-version" := by decide
  simp only [fnHeaders, BTreeMap.get_insert, if_neg hne, ↓reduceIte]

/-- The writer hands on every header that is not its own. -/
theorem get_fnHeaders {response : FunctionResponse} {name : Str}
    (h : name ∉ ([
      "content-length", "connection", "content-type", "fn-http-status", "fn-fdk-version"] : List Str)) :
    (fnHeaders response).get name = response.headers.get name := by
  simp only [List.mem_cons, List.not_mem_nil, or_false, not_or] at h
  obtain ⟨hlength, hconnection, htype, hstatus, hversion⟩ := h
  simp only [fnHeaders, BTreeMap.get_insert, BTreeMap.get_orInsert, BTreeMap.get_remove, hlength,
    hconnection, htype, hstatus, hversion, ↓reduceIte]

/-- A header that is written is one of the response's, or the writer's own. -/
theorem mem_writeFnResponse {serde : SerdeJson} {outerStatus : Nat} {response : FunctionResponse}
    {name value : Str} :
    (name, value) ∈ (writeFnResponse serde outerStatus response).headers ↔
      (fnHeaders response).get name = some value ∧ validHeaderName name ∧ validHeaderValue value := by
  rw [BTreeMap.get_eq_some_iff, writeFnResponse, writeHttpResponse, List.mem_filter,
    Bool.and_eq_true]

/-- The status of the function is always written. -/
theorem status_mem_writeFnResponse (serde : SerdeJson) (outerStatus : Nat)
    (response : FunctionResponse) :
    (("fn-http-status" : Str), Numeral.decimal response.statusCode) ∈
      (writeFnResponse serde outerStatus response).headers :=
  mem_writeFnResponse.mpr
    ⟨get_fnHeaders_status response, by decide, validHeaderValue_decimal response.statusCode⟩

end OracleFn
