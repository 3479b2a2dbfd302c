-- SUMMARY: Peers of the Fn adapter that stay: behind which bytes the request reader waits, and what it makes of all others.
import ApmeWebMash.Base.ReaderWaits
import ApmeWebMash.OracleFn.Encoding

/-! # Open streams

A client that waits for its response keeps its stream open, and so does a client
that has forgotten to send its request. The adapter sets no timeout, so the
request reader waits wherever it needs a byte that has not come. -/

namespace OracleFn

open Reader (Decides Incremental)

/-- How the reader reports a failure of the device. -/
def reportDevice (message : Str) : ReadRequestError := .io (.device message)

/-- The reader waits for more than these bytes. -/
def waitsForMore (maxBodyBytes : Nat) (bytes : List UInt8) : Bool :=
  Reader.waits reportDevice (readRequest maxBodyBytes) bytes

/-! ## The request reader is incremental -/

theorem badRequest_ne_report (error message : Str) :
    ReadRequestError.badRequest error ≠ reportDevice message := fun h => by cases h

theorem tooLarge_ne_report (message : Str) : ReadRequestError.tooLarge ≠ reportDevice message :=
  fun h => by cases h

/-- A reader of the standard library, with its errors passed on. -/
theorem incremental_io {α : Type} {p : Reader IoError α} (h : Incremental IoError.device p) :
    Incremental reportDevice (p.mapErr ReadRequestError.io) :=
  h.mapErr fun _ _ heq => ReadRequestError.io.inj heq

theorem incremental_readHttpLine : Incremental reportDevice readHttpLine := by
  refine (incremental_io Incremental.readLine).bind fun line => ?_
  split
  · exact Incremental.pure _
  · exact Incremental.pure _

/-- A line that is refused is a bad request. -/
theorem headerLine_error {st : HeaderState} {line : Str} {e : ReadRequestError}
    (h : headerLine st line = .error e) : ∃ error, e = .badRequest error := by
  simp only [headerLine] at h
  split at h
  · exact ⟨_, (Except.error.inj h).symm⟩
  · split at h
    · cases h
    · split at h
      · exact ⟨_, (Except.error.inj h).symm⟩
      · split at h
        · exact ⟨_, (Except.error.inj h).symm⟩
        · split at h
          · exact ⟨_, (Except.error.inj h).symm⟩
          · cases h

theorem incremental_headerStep (st : HeaderState) : Incremental reportDevice (headerStep st) := by
  refine incremental_readHttpLine.bind fun line => ?_
  cases line with
  | none => exact Incremental.throw (badRequest_ne_report _)
  | some line =>
    refine Incremental.ofExcept fun e message h => ?_
    obtain ⟨error, rfl⟩ := headerLine_error h
    exact badRequest_ne_report error message

theorem incremental_readHeaders (headerBytes : Nat) :
    Incremental reportDevice (readHeaders headerBytes) := by
  refine (Incremental.forN incremental_headerStep _ _).bind fun r => ?_
  cases r with
  | next st => exact Incremental.throw (badRequest_ne_report _)
  | done headers => exact Incremental.pure _

theorem incremental_trailerStep (st : Unit) : Incremental reportDevice (trailerStep st) := by
  refine incremental_readHttpLine.bind fun line => ?_
  cases line with
  | none => exact Incremental.throw (badRequest_ne_report _)
  | some trailer =>
    dsimp only
    split
    · exact Incremental.pure _
    · exact Incremental.pure _

theorem incremental_readChunk (body : List UInt8) (size : Nat) :
    Incremental reportDevice (readChunk body size) := by
  rw [readChunk]
  split
  · exact Incremental.panicked
  · refine (incremental_io (Incremental.readExact size)).bind fun chunk => ?_
    refine (incremental_io (Incremental.readExact 2)).bind fun terminator => ?_
    split
    · exact Incremental.throw (badRequest_ne_report _)
    · exact Incremental.pure _

theorem incremental_chunkStep (maxBodyBytes : Nat) (body : List UInt8) :
    Incremental reportDevice (chunkStep maxBodyBytes body) := by
  refine incremental_readHttpLine.bind fun line => ?_
  cases line with
  | none => exact Incremental.throw (badRequest_ne_report _)
  | some sizeLine =>
    dsimp only
    split
    · exact Incremental.throw (badRequest_ne_report _)
    · split
      · exact (Incremental.loop advances_trailerStep incremental_trailerStep ()).bind
          fun _ => Incremental.pure _
      · split
        · exact Incremental.throw tooLarge_ne_report
        · exact incremental_readChunk _ _

theorem incremental_readBody (maxBodyBytes : Nat) (headers : BTreeMap Str Str) :
    Incremental reportDevice (readBody maxBodyBytes headers) := by
  rw [readBody]
  split
  · exact Incremental.loop (advances_chunkStep maxBodyBytes) (incremental_chunkStep maxBodyBytes) []
  · split
    · exact Incremental.pure _
    · split
      · exact Incremental.throw (badRequest_ne_report _)
      · split
        · exact Incremental.throw tooLarge_ne_report
        · exact incremental_io (Incremental.readExact _)

theorem incremental_readRequestAfter (maxBodyBytes : Nat) (requestLine : Str) :
    Incremental reportDevice (readRequestAfter maxBodyBytes requestLine) := by
  rw [readRequestAfter]
  split
  · exact Incremental.throw (badRequest_ne_report _)
  · split
    · exact Incremental.throw (badRequest_ne_report _)
    · refine (incremental_readHeaders _).bind fun headers => ?_
      exact (incremental_readBody maxBodyBytes headers).bind fun _ => Incremental.pure _

theorem incremental_readRequest (maxBodyBytes : Nat) :
    Incremental reportDevice (readRequest maxBodyBytes) := by
  refine incremental_readHttpLine.bind fun line => ?_
  cases line with
  | none => exact Incremental.pure _
  | some requestLine =>
    exact (incremental_readRequestAfter maxBodyBytes requestLine).bind fun _ => Incremental.pure _

/-! ## Behind which bytes it waits -/

/-- The reader waits for more exactly where what has come does not decide what it
    makes of the request. -/
theorem waitsForMore_eq_false_iff {maxBodyBytes : Nat} {bytes : List UInt8} :
    waitsForMore maxBodyBytes bytes = false ↔
      Decides reportDevice (readRequest maxBodyBytes) bytes :=
  (incremental_readRequest maxBodyBytes).not_waits_iff

/-- Nobody waits behind a request that has come as a whole. -/
theorem not_waitsForMore_bytes (message : Message) {maxBodyBytes : Nat}
    (hmax : maxBodyBytes ≤ Numeral.usizeMax) (hbody : message.framing.body.length ≤ maxBodyBytes) :
    waitsForMore maxBodyBytes message.bytes = false := by
  have hread := run_readRequest_bytes message hmax hbody
  exact waitsForMore_eq_false_iff.mpr ⟨_, [], fun _ h => (by cases h), hread⟩

end OracleFn
