-- SUMMARY: The request reader of the Oracle/Fn adapter: lines, header block, body framing.
import ApmeWebMash.Base.BTreeMap
import ApmeWebMash.Base.Numeral
import ApmeWebMash.Base.ReaderRules

/-! # The HTTP stream of the Fn socket

The reading half of `support/oracle_fn/http_stream.rs`. The runtime sends one
HTTP/1.1 request per connection; `readRequest` takes it apart. Memory is taken
to be available: the buffers that `Vec` allocates are not bounded here. -/

namespace OracleFn

open Reader (Step)

def maxHeaderLines : Nat := 128
def maxHeaderBytes : Nat := 64 * 1024

structure ParsedRequest where
  headers : BTreeMap Str Str
  body : List UInt8
deriving DecidableEq

inductive ReadRequestError where
  | io (error : IoError)
  | badRequest (error : Str)
  | tooLarge
deriving DecidableEq

/-! ## Lines -/

/-- The end of a line on the wire. -/
def crlf : Str := ['\r', '\n']

/-- The end of `read_http_line`: pop the line feed, and the carriage return
    before it. -/
def stripLineEnd (line : Str) : Str :=
  if line.getLast? = some '\n' then
    if line.dropLast.getLast? = some '\r' then line.dropLast.dropLast else line.dropLast
  else line

/-- `read_http_line`: `none` when no byte is left. -/
def readHttpLine : Reader ReadRequestError (Option Str) := do
  let line ← Reader.readLine.mapErr .io
  if line = [] then pure none else pure (some (stripLineEnd line))

theorem stripLineEnd_crlf (text : Str) : stripLineEnd (text ++ ['\r', '\n']) = text := by
  rw [show text ++ ['\r', '\n'] = text ++ ['\r'] ++ ['\n'] by simp, stripLineEnd]
  simp

/-- A terminated line loses its line feed and at most one carriage return. -/
theorem stripLineEnd_terminated (text : Str) :
    stripLineEnd (text ++ ['\n']) = text ∨ stripLineEnd (text ++ ['\n']) ++ ['\r'] = text := by
  simp only [stripLineEnd, List.getLast?_append, List.getLast?_singleton, Option.some_or,
    ↓reduceIte, List.dropLast_concat]
  split
  · rename_i h
    exact .inr (List.dropLast_append_getLast? '\r' h)
  · exact .inl rfl

theorem stripLineEnd_unterminated {text : Str} (h : '\n' ∉ text) : stripLineEnd text = text := by
  rw [stripLineEnd, if_neg]
  intro hlast
  exact h (List.mem_of_getLast? hlast)

/-- A line ended by CRLF is read to its end, whatever follows it. -/
theorem run_readHttpLine_crlf {line : Str} (h : '\n' ∉ line) (rest : List UInt8)
    (fault : Option Str) :
    readHttpLine.run ⟨Utf8.encode (line ++ ['\r', '\n']) ++ rest, fault⟩ =
      (.ok (some line), ⟨rest, fault⟩) := by
  have hline : '\n' ∉ line ++ ['\r'] := by simp [h]
  have hread := Reader.run_readLine_terminated hline rest fault
  simp only [List.append_assoc, List.cons_append, List.nil_append] at hread
  rw [readHttpLine, Reader.run_bind, Reader.run_mapErr_ok hread, Reader.andThen_ok]
  simp [stripLineEnd_crlf]

theorem run_readHttpLine_empty : readHttpLine.run ⟨[], none⟩ = (.ok none, ⟨[], none⟩) := by
  decide +kernel

/-- No line is what an exhausted source yields. -/
theorem run_readHttpLine_none {s s' : Source} (h : readHttpLine.run s = (.ok none, s')) :
    s = ⟨[], none⟩ ∧ s' = ⟨[], none⟩ := by
  obtain ⟨text, t, hread, hcont⟩ := Reader.run_bind_ok h
  obtain ⟨hbytes, hfault, hline⟩ := Reader.run_readLine_ok (Reader.run_mapErr_eq_ok hread)
  split at hcont
  · rename_i hnil
    obtain ⟨-, rfl⟩ := Prod.mk.inj hcont
    rcases hline with ⟨body, -, hbody⟩ | ⟨-, rfl⟩
    · simp [hbody] at hnil
    · rw [hnil, Utf8.encode_nil, List.nil_append] at hbytes
      exact ⟨by cases s; simp_all, rfl⟩
  · cases hcont

theorem refuses_readHttpLine_fault (message : Str) :
    Reader.Refuses readHttpLine ⟨[], some message⟩ :=
  Reader.Refuses.bind ⟨.io (.device message), ⟨[], some message⟩, rfl⟩

/-- A reader that starts with a line and refuses the absence of one refuses an
    empty source. -/
theorem refuses_readHttpLine_bind {α : Type} {f : Option Str → Reader ReadRequestError α}
    (hnone : Reader.Refuses (f none) ⟨[], none⟩) (fault : Option Str) :
    Reader.Refuses (readHttpLine >>= f) ⟨[], fault⟩ := by
  cases fault with
  | none => exact Reader.Refuses.bind_of_ok run_readHttpLine_empty hnone
  | some message => exact (refuses_readHttpLine_fault message).bind

theorem meets_readHttpLine (s : Source) :
    Reader.Meets readHttpLine s fun line s' =>
      s'.bytes.length ≤ s.bytes.length ∧ (line.isSome → s'.bytes.length < s.bytes.length) := by
  refine (Reader.Meets.readLine s).mapErr.bind fun line t ht => ?_
  by_cases hline : line = []
  · rw [if_pos hline]
    exact Reader.Meets.pure ⟨by omega, fun h => by cases h⟩
  · rw [if_neg hline]
    have := Str.length_le_len line
    have hpos := List.length_pos_iff.mpr hline
    exact Reader.Meets.pure ⟨by omega, fun _ => by omega⟩

/-! ## Header block -/

/-- The bytes a header name may have. -/
def isHeaderNameChar (c : Char) : Bool :=
  c.isAlphanum || c == '-'

/-- The loop state of the header block: the headers so far, and the length of
    the request line and of the header lines so far. -/
structure HeaderState where
  headers : BTreeMap Str Str
  headerBytes : Nat

/-- `headers.entry(name).and_modify(push ',' and value).or_insert(value)`. -/
def addHeader (headers : BTreeMap Str Str) (name value : Str) : BTreeMap Str Str :=
  headers.upsert name value fun existing => existing ++ ',' :: value

/-- What an iteration of the header loop of `read_request` does with a line. -/
def headerLine (st : HeaderState) (line : Str) :
    Except ReadRequestError (Step HeaderState (BTreeMap Str Str)) :=
  let headerBytes := Numeral.saturatingAdd st.headerBytes (Str.len line)
  if headerBytes > maxHeaderBytes then .error (.badRequest "headers_too_large")
  else if line = [] then .ok (.done st.headers)
  else
    match Str.splitOnce ':' line with
    | none => .error (.badRequest "invalid_http_header")
    | some (name, value) =>
      let name := Str.toAsciiLowercase (Str.trim name)
      if name = [] || !name.all isHeaderNameChar then
        .error (.badRequest "invalid_http_header_name")
      else
        let value := Str.trim value
        if value.any Str.isControl then .error (.badRequest "invalid_http_header_value")
        else .ok (.next ⟨addHeader st.headers name value, headerBytes⟩)

/-- One iteration of the header loop of `read_request`. -/
def headerStep (st : HeaderState) :
    Reader ReadRequestError (Step HeaderState (BTreeMap Str Str)) := do
  match ← readHttpLine with
  | none => Reader.throw (.badRequest "unexpected_eof_in_headers")
  | some line => Reader.ofExcept (headerLine st line)

/-- The header loop and the check after it. -/
def readHeaders (headerBytes : Nat) : Reader ReadRequestError (BTreeMap Str Str) := do
  match ← Reader.forN headerStep maxHeaderLines ⟨BTreeMap.empty, headerBytes⟩ with
  | .done headers => pure headers
  | .next _ => Reader.throw (.badRequest "too_many_headers")

/-! ## Body -/

/-- One iteration of the trailer loop of `read_chunked_body`. -/
def trailerStep (_ : Unit) : Reader ReadRequestError (Step Unit Unit) := do
  match ← readHttpLine with
  | none => Reader.throw (.badRequest "unexpected_eof_in_trailers")
  | some trailer => if trailer = [] then pure (.done ()) else pure (.next ())

/-- The size that a chunk-size line declares. -/
def chunkSize (sizeLine : Str) : Option Nat :=
  Numeral.fromStrRadix 16 Numeral.usizeMax (Str.trim (Str.beforeFirst ';' sizeLine))

/-- Read a chunk of `size` bytes behind `body`. The addition `start + size` is
    unchecked in the source: past `usize::MAX` it panics, or wraps below `start`
    and the slice `body[start..]` panics. -/
def readChunk (body : List UInt8) (size : Nat) :
    Reader ReadRequestError (Step (List UInt8) (List UInt8)) :=
  if Numeral.usizeMax < body.length + size then Reader.panicked
  else do
    let chunk ← (Reader.readExact size).mapErr .io
    let terminator ← (Reader.readExact 2).mapErr .io
    if terminator ≠ [13, 10] then Reader.throw (.badRequest "invalid_chunk_terminator")
    else pure (.next (body ++ chunk))

/-- One iteration of the chunk loop of `read_chunked_body`. -/
def chunkStep (maxBodyBytes : Nat) (body : List UInt8) :
    Reader ReadRequestError (Step (List UInt8) (List UInt8)) := do
  match ← readHttpLine with
  | none => Reader.throw (.badRequest "unexpected_eof_in_chunk_size")
  | some sizeLine =>
    match chunkSize sizeLine with
    | none => Reader.throw (.badRequest "invalid_chunk_size")
    | some size =>
      if size = 0 then do
        Reader.loop trailerStep ()
        pure (.done body)
      else if Numeral.saturatingAdd body.length size > maxBodyBytes then Reader.throw .tooLarge
      else readChunk body size

/-- What a chunk that was read looks like on the stream. -/
theorem readChunk_ok {body : List UInt8} {size : Nat} {s s' : Source}
    {r : Step (List UInt8) (List UInt8)} (h : (readChunk body size).run s = (.ok r, s')) :
    body.length + size ≤ Numeral.usizeMax ∧
      ∃ chunk, chunk.length = size ∧ s.bytes = chunk ++ [13, 10] ++ s'.bytes ∧
        r = .next (body ++ chunk) := by
  rw [readChunk] at h
  split at h
  · cases h
  · rename_i hfits
    obtain ⟨chunk, t, hchunk, h⟩ := Reader.run_bind_ok h
    obtain ⟨terminator, u, hterm, h⟩ := Reader.run_bind_ok h
    obtain ⟨hlen, hbytes, -⟩ := Reader.run_readExact_ok (Reader.run_mapErr_eq_ok hchunk)
    obtain ⟨-, hbytes', -⟩ := Reader.run_readExact_ok (Reader.run_mapErr_eq_ok hterm)
    split at h
    · cases h
    · rename_i hcrlf
      obtain ⟨hr, rfl⟩ := Prod.mk.inj h
      rw [not_not.mp hcrlf] at hbytes'
      exact ⟨Nat.not_lt.mp hfits, chunk, hlen, by rw [hbytes, hbytes', List.append_assoc],
        (Outcome.ok.inj hr).symm⟩

theorem advances_trailerStep : Reader.Advances trailerStep := by
  intro _ s st' s' h
  obtain ⟨line, t, hread, hcont⟩ := Reader.run_bind_ok h
  match line with
  | none => cases hcont
  | some trailer =>
    have hlt := ((meets_readHttpLine s).of_run_ok hread).2 rfl
    by_cases hnil : trailer = []
    · simp only [hnil, ↓reduceIte] at hcont
      cases hcont
    · simp only [hnil, ↓reduceIte] at hcont
      obtain ⟨-, rfl⟩ := Prod.mk.inj hcont
      exact hlt

theorem advances_chunkStep (maxBodyBytes : Nat) : Reader.Advances (chunkStep maxBodyBytes) := by
  intro body s st' s' h
  obtain ⟨line, t, hread, hcont⟩ := Reader.run_bind_ok h
  match line with
  | none => cases hcont
  | some sizeLine =>
    have hlt := ((meets_readHttpLine s).of_run_ok hread).2 rfl
    dsimp only at hcont
    split at hcont
    · cases hcont
    · split at hcont
      · obtain ⟨_, _, _, hdone⟩ := Reader.run_bind_ok hcont
        cases hdone
      · split at hcont
        · cases hcont
        · obtain ⟨-, chunk, -, hbytes, -⟩ := readChunk_ok hcont
          have hlen := congrArg List.length hbytes
          simp only [List.length_append] at hlen
          omega

/-- `read_chunked_body`. -/
def readChunkedBody (maxBodyBytes : Nat) : Reader ReadRequestError (List UInt8) :=
  Reader.loop (chunkStep maxBodyBytes) []

/-- The framing test of `read_request` on the `transfer-encoding` value. -/
def isChunked (headers : BTreeMap Str Str) : Bool :=
  match headers.get "transfer-encoding" with
  | some value => Str.contains (Str.toAsciiLowercase value) "chunked"
  | none => false

/-- The body of a request with these headers. -/
def readBody (maxBodyBytes : Nat) (headers : BTreeMap Str Str) :
    Reader ReadRequestError (List UInt8) :=
  if isChunked headers then readChunkedBody maxBodyBytes
  else
    match headers.get "content-length" with
    | none => pure []
    | some value =>
      match Numeral.fromStrRadix 10 Numeral.usizeMax (Str.trim value) with
      | none => Reader.throw (.badRequest "invalid_content_length")
      | some length =>
        if length > maxBodyBytes then Reader.throw .tooLarge
        else (Reader.readExact length).mapErr .io

/-! ## Request -/

/-- Three words, the third of which names a version of HTTP/1. -/
def isRequestLine (requestLine : Str) : Bool :=
  match Str.splitWhitespace requestLine with
  | [_, _, version] => Str.startsWith version "HTTP/1."
  | _ => false

/-- Everything `read_request` does after the request line. -/
def readRequestAfter (maxBodyBytes : Nat) (requestLine : Str) :
    Reader ReadRequestError ParsedRequest :=
  if !isRequestLine requestLine then Reader.throw (.badRequest "invalid_http_request_line")
  else if Str.len requestLine > maxHeaderBytes then Reader.throw (.badRequest "headers_too_large")
  else do
    let headers ← readHeaders (Str.len requestLine)
    let body ← readBody maxBodyBytes headers
    pure ⟨headers, body⟩

/-- `read_request`: `none` on a connection that closes without a byte. -/
def readRequest (maxBodyBytes : Nat) : Reader ReadRequestError (Option ParsedRequest) := do
  match ← readHttpLine with
  | none => pure none
  | some requestLine =>
    let request ← readRequestAfter maxBodyBytes requestLine
    pure (some request)

/-- A request is missing only where there is nothing to read. -/
theorem bytes_eq_nil_of_readRequest {maxBodyBytes : Nat} {s t : Source}
    (h : (readRequest maxBodyBytes).run s = (.ok none, t)) : s.bytes = [] := by
  obtain ⟨line, u, hline, hrest⟩ := Reader.run_bind_ok h
  cases line with
  | none =>
    obtain ⟨rfl, -⟩ := run_readHttpLine_none hline
    rfl
  | some requestLine =>
    obtain ⟨request, v, -, hpure⟩ := Reader.run_bind_ok hrest
    cases hpure

/-! ## What is left of the stream -/

section
variable {R : Source → Source → Prop} (h : Reader.Persists R)
include h

theorem keeps_readHttpLine : Reader.Keeps R readHttpLine := by
  refine h.bind (Reader.Persists.mapErr h.readLine) fun line => ?_
  split
  · exact h.pure _
  · exact h.pure _

theorem keeps_headerStep (st : HeaderState) : Reader.Keeps R (headerStep st) := by
  refine h.bind (keeps_readHttpLine h) fun line => ?_
  cases line with
  | none => exact h.throw _
  | some line => exact h.ofExcept _

theorem keeps_readHeaders (headerBytes : Nat) : Reader.Keeps R (readHeaders headerBytes) := by
  refine h.bind (h.forN (keeps_headerStep h) _ _) fun r => ?_
  cases r with
  | next st => exact h.throw _
  | done headers => exact h.pure _

theorem keeps_trailerStep (st : Unit) : Reader.Keeps R (trailerStep st) := by
  refine h.bind (keeps_readHttpLine h) fun line => ?_
  cases line with
  | none => exact h.throw _
  | some trailer =>
    dsimp only
    split
    · exact h.pure _
    · exact h.pure _

theorem keeps_trailers : Reader.Keeps R (Reader.loop trailerStep ()) :=
  h.loop advances_trailerStep (keeps_trailerStep h) ()

theorem keeps_readChunk (body : List UInt8) (size : Nat) :
    Reader.Keeps R (readChunk body size) := by
  rw [readChunk]
  split
  · exact h.panicked
  · refine h.bind (Reader.Persists.mapErr (h.readExact size)) fun chunk => ?_
    refine h.bind (Reader.Persists.mapErr (h.readExact 2)) fun terminator => ?_
    split
    · exact h.throw _
    · exact h.pure _

theorem keeps_chunkStep (maxBodyBytes : Nat) (body : List UInt8) :
    Reader.Keeps R (chunkStep maxBodyBytes body) := by
  refine h.bind (keeps_readHttpLine h) fun line => ?_
  cases line with
  | none => exact h.throw _
  | some sizeLine =>
    dsimp only
    split
    · exact h.throw _
    · split
      · exact h.bind (keeps_trailers h) fun _ => h.pure _
      · split
        · exact h.throw _
        · exact keeps_readChunk h _ _

theorem keeps_readBody (maxBodyBytes : Nat) (headers : BTreeMap Str Str) :
    Reader.Keeps R (readBody maxBodyBytes headers) := by
  rw [readBody]
  split
  · exact h.loop (advances_chunkStep maxBodyBytes) (keeps_chunkStep h maxBodyBytes) []
  · split
    · exact h.pure _
    · split
      · exact h.throw _
      · split
        · exact h.throw _
        · exact Reader.Persists.mapErr (h.readExact _)

theorem keeps_readRequestAfter (maxBodyBytes : Nat) (requestLine : Str) :
    Reader.Keeps R (readRequestAfter maxBodyBytes requestLine) := by
  rw [readRequestAfter]
  split
  · exact h.throw _
  · split
    · exact h.throw _
    · refine h.bind (keeps_readHeaders h _) fun headers => ?_
      exact h.bind (keeps_readBody h maxBodyBytes headers) fun _ => h.pure _

end

end OracleFn
