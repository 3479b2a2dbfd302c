-- SUMMARY: The request reader reads every line to its end, however long, and every trailer line, however many.
import ApmeWebMash.OracleFn.Truncation

/-! # Consumption

The limit on the header bytes is checked when a line has been read, and neither
the size lines of chunks nor the trailer lines are counted. So a peer decides
how much the reader takes. -/

namespace OracleFn

open Reader (LeavesAtMost Shrinks Strict)

/-! ## Lines on the wire -/

/-- A line with something in it. -/
structure WireLine where
  text : Str
  ne_nil : text ≠ []
  no_newline : '\n' ∉ text

/-- The line and its end. -/
def WireLine.bytes (line : WireLine) : List UInt8 := Utf8.encode (line.text ++ crlf)

/-- The places at which the reader reads a line, the trailers apart. -/
inductive LinePlace where
  | requestLine
  | headerLine
  | sizeLine

/-- What a peer sends in front of a line at that place. -/
def LinePlace.before : LinePlace → List UInt8
  | .requestLine => []
  | .headerLine => Utf8.encode "POST / HTTP/1.1\r\n"
  | .sizeLine => Utf8.encode "POST / HTTP/1.1\r\nTransfer-Encoding: chunked\r\n\r\n"

/-- The trailers behind the last chunk of a body. -/
def withTrailers (trailers : List WireLine) : List UInt8 :=
  LinePlace.sizeLine.before ++ Utf8.encode "0\r\n" ++ trailers.flatMap WireLine.bytes

/-- The number of bytes that `read_request` takes from the source. -/
def consumed (maxBodyBytes : Nat) (s : Source) : Nat :=
  s.bytes.length - ((readRequest maxBodyBytes).run s).2.bytes.length

/-! ## First lines

Each part of the reader leaves at most what the first line it reads leaves. -/

variable {s : Source} {n : Nat}

theorem shrinks_readHttpLine : Shrinks readHttpLine := keeps_readHttpLine Reader.persists_length

theorem leaves_headerStep (h : LeavesAtMost readHttpLine s n) (st : HeaderState) :
    LeavesAtMost (headerStep st) s n := by
  refine h.bind fun line => ?_
  cases line with
  | none => exact Shrinks.throw _
  | some line => exact Reader.persists_length.ofExcept _

theorem leaves_readHeaders (h : LeavesAtMost readHttpLine s n) (headerBytes : Nat) :
    LeavesAtMost (readHeaders headerBytes) s n := by
  have hstep := fun st s => leaves_headerStep (shrinks_readHttpLine s) st
  refine (LeavesAtMost.forN_succ hstep (leaves_headerStep h _) 127).bind fun r => ?_
  cases r with
  | next st => exact Shrinks.throw _
  | done headers => exact Shrinks.pure _

theorem shrinks_trailers : Shrinks (Reader.loop trailerStep ()) :=
  keeps_trailers Reader.persists_length

theorem leaves_chunkStep (h : LeavesAtMost readHttpLine s n) (maxBodyBytes : Nat)
    (body : List UInt8) : LeavesAtMost (chunkStep maxBodyBytes body) s n := by
  refine h.bind fun line => ?_
  cases line with
  | none => exact Shrinks.throw _
  | some sizeLine =>
    dsimp only
    split
    · exact Shrinks.throw _
    · split
      · exact Reader.persists_length.bind shrinks_trailers fun _ => Shrinks.pure _
      · split
        · exact Shrinks.throw _
        · exact keeps_readChunk Reader.persists_length _ _

theorem leaves_readChunkedBody (h : LeavesAtMost readHttpLine s n) (maxBodyBytes : Nat) :
    LeavesAtMost (readChunkedBody maxBodyBytes) s n :=
  LeavesAtMost.loop (advances_chunkStep maxBodyBytes)
    (fun body s => leaves_chunkStep (shrinks_readHttpLine s) maxBodyBytes body)
    (leaves_chunkStep h maxBodyBytes [])

theorem shrinks_readBody (maxBodyBytes : Nat) (headers : BTreeMap Str Str) :
    Shrinks (readBody maxBodyBytes headers) :=
  keeps_readBody Reader.persists_length maxBodyBytes headers

theorem shrinks_readRequestAfter (maxBodyBytes : Nat) (requestLine : Str) :
    Shrinks (readRequestAfter maxBodyBytes requestLine) :=
  keeps_readRequestAfter Reader.persists_length maxBodyBytes requestLine

theorem leaves_readRequest (h : LeavesAtMost readHttpLine s n) (maxBodyBytes : Nat) :
    LeavesAtMost (readRequest maxBodyBytes) s n := by
  refine h.bind fun line => ?_
  cases line with
  | none => exact Shrinks.pure _
  | some requestLine =>
    exact Reader.persists_length.bind (shrinks_readRequestAfter maxBodyBytes requestLine)
      fun _ => Shrinks.pure _

/-! ## Lines of any length -/

theorem run_wireLine (line : WireLine) (rest : List UInt8) (fault : Option Str) :
    readHttpLine.run ⟨line.bytes ++ rest, fault⟩ = (.ok (some line.text), ⟨rest, fault⟩) :=
  run_readHttpLine_crlf line.no_newline rest fault

theorem leaves_wireLine (line : WireLine) (rest : List UInt8) (fault : Option Str) :
    LeavesAtMost readHttpLine ⟨line.bytes ++ rest, fault⟩ rest.length := by
  rw [LeavesAtMost, run_wireLine]

theorem readRequestAfter_post (maxBodyBytes : Nat) :
    readRequestAfter maxBodyBytes "POST / HTTP/1.1" = (do
      let headers ← readHeaders 15
      let body ← readBody maxBodyBytes headers
      pure ⟨headers, body⟩) := by
  have hline : isRequestLine "POST / HTTP/1.1" := by decide +kernel
  have hlen : Str.len "POST / HTTP/1.1" = 15 := by decide +kernel
  rw [readRequestAfter, hline, hlen]
  rfl

/-- Behind a request line, the reader is in the header block. -/
theorem leaves_behind_requestLine {rest : List UInt8} {fault : Option Str} {maxBodyBytes : Nat}
    (h : LeavesAtMost (readRequestAfter maxBodyBytes "POST / HTTP/1.1") ⟨rest, fault⟩ n) :
    LeavesAtMost (readRequest maxBodyBytes) ⟨LinePlace.headerLine.before ++ rest, fault⟩ n := by
  have hnewline : '\n' ∉ ("POST / HTTP/1.1" : Str) := by decide
  refine LeavesAtMost.bind_of_ok (run_readHttpLine_crlf hnewline rest fault) ?_
  exact h.bind fun _ => Shrinks.pure _

/-- Behind the header block of a chunked request, the reader is in the body. -/
theorem leaves_behind_headers {rest : List UInt8} {fault : Option Str} {maxBodyBytes : Nat}
    (h : LeavesAtMost (readChunkedBody maxBodyBytes) ⟨rest, fault⟩ n) :
    LeavesAtMost (readRequest maxBodyBytes) ⟨LinePlace.sizeLine.before ++ rest, fault⟩ n := by
  let headers : BTreeMap Str Str := BTreeMap.ofList [("transfer-encoding", "chunked")]
  have hblock : (readHeaders 15).run ⟨Utf8.encode "Transfer-Encoding: chunked\r\n\r\n", none⟩ =
      (.ok headers, ⟨[], none⟩) := by decide +kernel
  have hchunked : isChunked headers := by decide +kernel
  have hsplit : LinePlace.sizeLine.before =
      LinePlace.headerLine.before ++ Utf8.encode "Transfer-Encoding: chunked\r\n\r\n" := by
    decide +kernel
  rw [hsplit, List.append_assoc]
  refine leaves_behind_requestLine ?_
  rw [readRequestAfter_post]
  refine LeavesAtMost.bind_of_ok ((strict_readHeaders 15).run_append hblock rest fault) ?_
  rw [readBody, if_pos hchunked]
  exact h.bind fun _ => Shrinks.pure _

/-- Wherever a line is read, it is read to its end. -/
theorem leaves_line (maxBodyBytes : Nat) (place : LinePlace) (line : WireLine) (rest : List UInt8)
    (fault : Option Str) :
    LeavesAtMost (readRequest maxBodyBytes) ⟨place.before ++ line.bytes ++ rest, fault⟩
      rest.length := by
  have hline := leaves_wireLine line rest fault
  rw [List.append_assoc]
  cases place with
  | requestLine => exact leaves_readRequest hline maxBodyBytes
  | headerLine =>
    refine leaves_behind_requestLine ?_
    rw [readRequestAfter_post]
    exact (leaves_readHeaders hline 15).bind fun headers =>
      Reader.persists_length.bind (shrinks_readBody maxBodyBytes headers) fun _ => Shrinks.pure _
  | sizeLine => exact leaves_behind_headers (leaves_readChunkedBody hline maxBodyBytes)

/-! ## Trailers of any number -/

theorem run_trailerStep (line : WireLine) (rest : List UInt8) (fault : Option Str) :
    (trailerStep ()).run ⟨line.bytes ++ rest, fault⟩ = (.ok (.next ()), ⟨rest, fault⟩) := by
  rw [trailerStep, Reader.run_bind, run_wireLine, Reader.andThen_ok]
  dsimp only
  rw [if_neg line.ne_nil, Reader.run_pure]

/-- The trailer loop goes on as long as there are trailers. -/
theorem leaves_trailers (trailers : List WireLine) (rest : List UInt8) (fault : Option Str) :
    LeavesAtMost (Reader.loop trailerStep ())
      ⟨trailers.flatMap WireLine.bytes ++ rest, fault⟩ rest.length := by
  induction trailers with
  | nil => exact shrinks_trailers ⟨rest, fault⟩
  | cons line trailers ih =>
    rw [List.flatMap_cons, List.append_assoc, Reader.loop_eq_bind advances_trailerStep]
    exact LeavesAtMost.bind_of_ok (run_trailerStep line _ fault) ih

theorem leaves_withTrailers (maxBodyBytes : Nat) (trailers : List WireLine) (rest : List UInt8)
    (fault : Option Str) :
    LeavesAtMost (readRequest maxBodyBytes) ⟨withTrailers trailers ++ rest, fault⟩ rest.length := by
  have hnewline : '\n' ∉ ("0" : Str) := by decide
  have hzero : chunkSize "0" = some 0 := by decide +kernel
  rw [withTrailers, List.append_assoc, List.append_assoc]
  refine leaves_behind_headers (LeavesAtMost.loop (advances_chunkStep maxBodyBytes)
    (fun body s => leaves_chunkStep (shrinks_readHttpLine s) maxBodyBytes body) ?_)
  refine LeavesAtMost.bind_of_ok (run_readHttpLine_crlf hnewline _ fault) ?_
  dsimp only
  rw [hzero]
  exact (leaves_trailers trailers rest fault).bind fun _ => Shrinks.pure _

/-! ## What the peer decides -/

theorem length_le_consumed {maxBodyBytes : Nat} {used rest : List UInt8} {fault : Option Str}
    (h : LeavesAtMost (readRequest maxBodyBytes) ⟨used ++ rest, fault⟩ rest.length) :
    used.length ≤ consumed maxBodyBytes ⟨used ++ rest, fault⟩ := by
  rw [LeavesAtMost] at h
  rw [consumed, List.length_append]
  omega

/-- A line of the letter `a`. -/
def letters (n : Nat) : WireLine where
  text := List.replicate (n + 1) 'a'
  ne_nil := List.cons_ne_nil _ _
  no_newline h := absurd (List.eq_of_mem_replicate h) (by decide)

theorem lt_length_letters (n : Nat) : n < (letters n).bytes.length := by
  have hlen := Str.length_le_len ((letters n).text ++ crlf)
  have htext : (letters n).text.length = n + 1 := List.length_replicate
  rw [List.length_append, htext] at hlen
  rw [Str.len] at hlen
  rw [WireLine.bytes]
  omega

theorem not_bounded (maxBodyBytes : Nat) : ¬ ∃ bound, ∀ s, consumed maxBodyBytes s ≤ bound := by
  rintro ⟨bound, hbound⟩
  have hline := length_le_consumed (leaves_line maxBodyBytes .requestLine (letters bound) [] none)
  have hlt := lt_length_letters bound
  rw [List.length_append] at hline
  exact absurd (hline.trans (hbound _)) (by omega)

/-- Whatever the limit on bodies, no bound on what is read holds for all streams:
    a line is read to its end at every place, and the trailers are read to the
    last. -/
theorem readRequest_unbounded (maxBodyBytes : Nat) :
    (¬ ∃ bound, ∀ s, consumed maxBodyBytes s ≤ bound) ∧
    (∀ (place : LinePlace) (line : WireLine) (rest : List UInt8) (fault : Option Str),
      (place.before ++ line.bytes).length ≤
        consumed maxBodyBytes ⟨place.before ++ line.bytes ++ rest, fault⟩) ∧
    ∀ (trailers : List WireLine) (rest : List UInt8) (fault : Option Str),
      (withTrailers trailers).length ≤ consumed maxBodyBytes ⟨withTrailers trailers ++ rest, fault⟩ :=
  ⟨not_bounded maxBodyBytes,
    fun place line rest fault => length_le_consumed (leaves_line maxBodyBytes place line rest fault),
    fun trailers rest fault =>
      length_le_consumed (leaves_withTrailers maxBodyBytes trailers rest fault)⟩

/-- With the limit of a route, too. -/
theorem not_bounded_default : ¬ ∃ bound, ∀ s, consumed 1048576 s ≤ bound :=
  not_bounded 1048576

end OracleFn
