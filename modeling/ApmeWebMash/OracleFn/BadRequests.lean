-- SUMMARY: Which streams the Fn adapter reports as malformed, and which it takes for a failure of the transport.
import ApmeWebMash.Base.ReaderErrors
import ApmeWebMash.OracleFn.Adapter

/-! # Bad requests

A stream that ends where a line should begin is a bad request. A stream that ends
inside a body, or has a line that is not UTF-8, makes the standard library fail,
and that error goes the way of a failure of the socket. -/

namespace OracleFn

open Lambdas (FunctionResponse Host RouteSpec)
open Reader (EndsIn LineIsText Reaches Step Visits)

/-! ## Places in a stream -/

/-- An error that is the client's, and reported to it as such. -/
def IsReported : ReadRequestError → Prop
  | .badRequest _ | .tooLarge => True
  | .io _ => False

/-- The stream begins with a request line that is accepted; `u` is what follows. -/
structure TakesRequestLine (s : Source) (requestLine : Str) (u : Source) : Prop where
  run_eq : readHttpLine.run s = (.ok (some requestLine), u)
  is_requestLine : isRequestLine requestLine
  len_le : Str.len requestLine ≤ maxHeaderBytes

/-- The stream begins with a request line and a header block that are accepted;
    `t` is what follows. -/
def TakesHead (s : Source) (headers : BTreeMap Str Str) (t : Source) : Prop :=
  ∃ requestLine u, TakesRequestLine s requestLine u ∧
    (readHeaders (Str.len requestLine)).run u = (.ok headers, t)

/-- A size line is read from `u`, behind this part of a chunked body. -/
def AtSizeLine (maxBodyBytes : Nat) (s : Source) (body : List UInt8) (u : Source) : Prop :=
  ∃ headers t, TakesHead s headers t ∧ isChunked headers = true ∧
    Visits (chunkStep maxBodyBytes) [] t body u

/-- That size line declares a size; `v` is what follows it. -/
def TakesSize (maxBodyBytes : Nat) (s : Source) (body : List UInt8) (size : Nat) (v : Source) :
    Prop :=
  ∃ u sizeLine, AtSizeLine maxBodyBytes s body u ∧
    readHttpLine.run u = (.ok (some sizeLine), v) ∧ chunkSize sizeLine = some size

/-- The sources from which `read_request` reads a line. -/
inductive AtLine (maxBodyBytes : Nat) (s : Source) : Source → Prop where
  | requestLine : AtLine maxBodyBytes s s
  | headerLine {requestLine : Str} {u t : Source} {st : HeaderState} :
    TakesRequestLine s requestLine u →
      Reaches headerStep maxHeaderLines ⟨BTreeMap.empty, Str.len requestLine⟩ u st t →
        AtLine maxBodyBytes s t
  | sizeLine {body : List UInt8} {u : Source} :
    AtSizeLine maxBodyBytes s body u → AtLine maxBodyBytes s u
  | trailer {body : List UInt8} {v w : Source} :
    TakesSize maxBodyBytes s body 0 v → Visits trailerStep () v () w → AtLine maxBodyBytes s w

/-- A chunk and the two bytes behind it are there. -/
def ChunkFits (body : List UInt8) (size : Nat) (v : Source) : Prop :=
  body.length + size ≤ Numeral.usizeMax ∧ size + 2 ≤ v.bytes.length

/-- A body of a declared length is there, as far as its length is accepted. -/
def LengthFits (maxBodyBytes : Nat) (headers : BTreeMap Str Str) (t : Source) : Prop :=
  ∀ value length, headers.get "content-length" = some value →
    Numeral.fromStrRadix 10 Numeral.usizeMax (Str.trim value) = some length →
      length ≤ maxBodyBytes → length ≤ t.bytes.length

/-- The stream is cut nowhere inside a body, and what is read for a line is
    UTF-8. -/
structure Wellformed (maxBodyBytes : Nat) (s : Source) : Prop where
  lines : ∀ t, AtLine maxBodyBytes s t → LineIsText t
  body : ∀ headers t, TakesHead s headers t → isChunked headers = false →
    LengthFits maxBodyBytes headers t
  chunks : ∀ body size v, TakesSize maxBodyBytes s body size v → size ≠ 0 →
    Numeral.saturatingAdd body.length size ≤ maxBodyBytes → ChunkFits body size v

/-- The connection is answered as the Fn contract has it: with the outer status
    200, and the status of the function in a header. -/
def AnswersOk (serde : SerdeJson) (host : Host) (s : Source) (spec : RouteSpec) : Prop :=
  ∃ response wire, fnAnswer serde host s spec = some (200, response) ∧
    handleStream serde host s spec = some wire ∧ wire.status = 200 ∧
    (("fn-http-status" : Str), Numeral.decimal response.statusCode) ∈ wire.headers

/-! ## Lines -/

variable {s : Source} {maxBodyBytes : Nat}

theorem endsIn_readHttpLine_iff (hs : s.fault = none) :
    EndsIn IsReported readHttpLine s ↔ LineIsText s := by
  rw [readHttpLine, EndsIn.bind_iff, EndsIn.mapErr_iff, EndsIn.readLine_iff hs]
  refine ⟨fun h => h.1.resolve_right id, fun h => ⟨.inl h, fun line t _ => ?_⟩⟩
  split
  · exact EndsIn.pure _
  · exact EndsIn.pure _

/-- A step that reads a line ends well if the line is text and the rest of the
    step ends well. -/
theorem endsIn_readHttpLine_bind_iff {α : Type} {f : Option Str → Reader ReadRequestError α}
    (hs : s.fault = none) (hnone : EndsIn IsReported (f none) ⟨[], none⟩) :
    EndsIn IsReported (readHttpLine >>= f) s ↔
      LineIsText s ∧ ∀ line t, readHttpLine.run s = (.ok (some line), t) →
        EndsIn IsReported (f (some line)) t := by
  rw [EndsIn.bind_iff, endsIn_readHttpLine_iff hs]
  refine and_congr_right fun _ => ⟨fun h line t hrun => h _ t hrun, fun h line t hrun => ?_⟩
  cases line with
  | none =>
    obtain ⟨-, rfl⟩ := run_readHttpLine_none hrun
    exact hnone
  | some line => exact h line t hrun

theorem fault_of_readHttpLine (hs : s.fault = none) {line : Option Str} {t : Source}
    (h : readHttpLine.run s = (.ok line, t)) : t.fault = none :=
  ((keeps_readHttpLine Reader.persists_fault).of_run h).trans hs

theorem isReported_headerLine {st : HeaderState} {line : Str} {error : ReadRequestError}
    (h : headerLine st line = .error error) : IsReported error := by
  rw [headerLine] at h
  dsimp only at h
  repeat' split at h
  all_goals first
    | cases h
      trivial
    | cases h

theorem endsIn_headerStep_iff (hs : s.fault = none) (st : HeaderState) :
    EndsIn IsReported (headerStep st) s ↔ LineIsText s := by
  refine (endsIn_readHttpLine_bind_iff hs ?_).trans (and_iff_left fun line t _ => ?_)
  · exact EndsIn.throw_iff.mpr trivial
  · exact EndsIn.ofExcept_iff.mpr fun error => isReported_headerLine

theorem endsIn_readHeaders_iff (hs : s.fault = none) (headerBytes : Nat) :
    EndsIn IsReported (readHeaders headerBytes) s ↔
      ∀ st t, Reaches headerStep maxHeaderLines ⟨BTreeMap.empty, headerBytes⟩ s st t →
        LineIsText t := by
  rw [readHeaders, EndsIn.bind_iff, EndsIn.forN_iff]
  refine (and_iff_left fun r t _ => ?_).trans ?_
  · cases r with
    | done headers => exact EndsIn.pure _
    | next st => exact EndsIn.throw_iff.mpr trivial
  · refine forall₂_congr fun st t => forall_congr' fun hreaches => ?_
    have ht := Reader.persists_fault.reaches (keeps_headerStep Reader.persists_fault) hreaches
    exact endsIn_headerStep_iff (ht.trans hs) st

theorem endsIn_trailers_iff (hs : s.fault = none) :
    EndsIn IsReported (Reader.loop trailerStep ()) s ↔
      ∀ w, Visits trailerStep () s () w → LineIsText w := by
  rw [EndsIn.loop_iff advances_trailerStep]
  refine Unique.forall_iff.trans (forall₂_congr fun w hvisits => ?_)
  have hw := Reader.persists_fault.visits (keeps_trailerStep Reader.persists_fault) hvisits
  refine (endsIn_readHttpLine_bind_iff (hw.trans hs) ?_).trans (and_iff_left fun trailer t _ => ?_)
  · exact EndsIn.throw_iff.mpr trivial
  · dsimp only
    split
    · exact EndsIn.pure _
    · exact EndsIn.pure _

/-! ## Bodies -/

theorem endsIn_readChunk_iff (hs : s.fault = none) (body : List UInt8) (size : Nat) :
    EndsIn IsReported (readChunk body size) s ↔ ChunkFits body size s := by
  rw [readChunk, ChunkFits]
  split
  · exact iff_of_false EndsIn.not_panicked fun h => by omega
  · rw [EndsIn.readExact_bind_iff hs id,
      EndsIn.readExact_bind_iff (s := ⟨s.bytes.drop size, s.fault⟩) hs id, List.length_drop]
    have hlast : ∀ (terminator chunk : List UInt8) (w : Source), EndsIn IsReported
        (if terminator ≠ [13, 10] then Reader.throw (.badRequest "invalid_chunk_terminator")
          else pure (.next (body ++ chunk) : Step (List UInt8) (List UInt8))) w := by
      intro terminator chunk w
      split
      · exact EndsIn.throw_iff.mpr trivial
      · exact EndsIn.pure _
    rw [and_iff_left (hlast _ _ _)]
    omega

/-- What is read behind a size line. -/
def SizeFits (maxBodyBytes : Nat) (body : List UInt8) (size : Nat) (v : Source) : Prop :=
  (size = 0 → ∀ w, Visits trailerStep () v () w → LineIsText w) ∧
  (size ≠ 0 → Numeral.saturatingAdd body.length size ≤ maxBodyBytes → ChunkFits body size v)

theorem endsIn_chunkStep_iff (hs : s.fault = none) (body : List UInt8) :
    EndsIn IsReported (chunkStep maxBodyBytes body) s ↔
      LineIsText s ∧ ∀ sizeLine size v, readHttpLine.run s = (.ok (some sizeLine), v) →
        chunkSize sizeLine = some size → SizeFits maxBodyBytes body size v := by
  refine (endsIn_readHttpLine_bind_iff hs ?_).trans (and_congr_right fun _ => ?_)
  · exact EndsIn.throw_iff.mpr trivial
  constructor
  · intro h sizeLine size v hrun hsize
    -- a size that cannot be read is reported at once
    have hrest := h sizeLine v hrun
    dsimp only at hrest
    rw [hsize] at hrest
    dsimp only at hrest
    have hv := fault_of_readHttpLine hs hrun
    split at hrest
    · rename_i hzero
      rw [EndsIn.bind_iff, endsIn_trailers_iff hv] at hrest
      exact ⟨fun _ => hrest.1, fun hne => absurd hzero hne⟩
    · rename_i hzero
      refine ⟨fun hzero' => absurd hzero' hzero, fun _ hle => ?_⟩
      rwa [if_neg (Nat.not_lt.mpr hle), endsIn_readChunk_iff hv] at hrest
  · intro h sizeLine v hrun
    dsimp only
    have hv := fault_of_readHttpLine hs hrun
    cases hsize : chunkSize sizeLine with
    | none => exact EndsIn.throw_iff.mpr trivial
    | some size =>
      obtain ⟨htrailers, hchunk⟩ := h sizeLine size v hrun hsize
      dsimp only
      split
      · rename_i hzero
        rw [EndsIn.bind_iff, endsIn_trailers_iff hv]
        exact ⟨htrailers hzero, fun _ _ _ => EndsIn.pure _⟩
      · rename_i hzero
        split
        · exact EndsIn.throw_iff.mpr trivial
        · rename_i hle
          exact (endsIn_readChunk_iff hv body size).mpr (hchunk hzero (Nat.not_lt.mp hle))

/-- What a chunked body needs: every size line is text, and what it declares is
    there. -/
def ChunksFit (maxBodyBytes : Nat) (t : Source) : Prop :=
  ∀ body u, Visits (chunkStep maxBodyBytes) [] t body u →
    LineIsText u ∧ ∀ sizeLine size v, readHttpLine.run u = (.ok (some sizeLine), v) →
      chunkSize sizeLine = some size → SizeFits maxBodyBytes body size v

/-- What a body needs behind the head. -/
structure BodyFits (maxBodyBytes : Nat) (headers : BTreeMap Str Str) (t : Source) : Prop where
  chunks : isChunked headers = true → ChunksFit maxBodyBytes t
  length : isChunked headers = false → LengthFits maxBodyBytes headers t

theorem endsIn_readChunkedBody_iff (hs : s.fault = none) :
    EndsIn IsReported (readChunkedBody maxBodyBytes) s ↔ ChunksFit maxBodyBytes s := by
  rw [readChunkedBody, EndsIn.loop_iff (advances_chunkStep maxBodyBytes)]
  refine forall₂_congr fun body u => forall_congr' fun hvisits => ?_
  have hkeeps := keeps_chunkStep Reader.persists_fault maxBodyBytes
  exact endsIn_chunkStep_iff ((Reader.persists_fault.visits hkeeps hvisits).trans hs) body

theorem lengthFits_iff {headers : BTreeMap Str Str} {value : Str} {length : Nat}
    (hvalue : headers.get "content-length" = some value)
    (hlength : Numeral.fromStrRadix 10 Numeral.usizeMax (Str.trim value) = some length) :
    LengthFits maxBodyBytes headers s ↔ (length ≤ maxBodyBytes → length ≤ s.bytes.length) := by
  refine ⟨fun h => h value length hvalue hlength, fun h value' length' hvalue' hlength' => ?_⟩
  rw [hvalue] at hvalue'
  cases hvalue'
  rw [hlength] at hlength'
  cases hlength'
  exact h

theorem endsIn_readBody_iff (hs : s.fault = none) (headers : BTreeMap Str Str) :
    EndsIn IsReported (readBody maxBodyBytes headers) s ↔ BodyFits maxBodyBytes headers s := by
  rw [readBody]
  split
  · rename_i hchunked
    rw [endsIn_readChunkedBody_iff hs]
    refine ⟨fun h => ⟨fun _ => h, fun hnot => ?_⟩, fun h => h.chunks hchunked⟩
    rw [hnot] at hchunked
    cases hchunked
  · rename_i hchunked
    -- without the coding, the declared length decides
    have hfits : BodyFits maxBodyBytes headers s ↔ LengthFits maxBodyBytes headers s :=
      ⟨fun h => h.length (Bool.not_eq_true _ ▸ hchunked),
        fun h => ⟨fun hyes => absurd hyes hchunked, fun _ => h⟩⟩
    rw [hfits]
    split
    · rename_i hvalue
      refine iff_of_true (EndsIn.pure _) fun value length hvalue' => ?_
      rw [hvalue] at hvalue'
      cases hvalue'
    · rename_i value hvalue
      split
      · rename_i hlength
        refine iff_of_true (EndsIn.throw_iff.mpr trivial) fun value' length hvalue' hlength' => ?_
        rw [hvalue] at hvalue'
        cases hvalue'
        rw [hlength] at hlength'
        cases hlength'
      · rename_i length hlength
        rw [lengthFits_iff hvalue hlength]
        split
        · rename_i hlarge
          refine iff_of_true (EndsIn.throw_iff.mpr trivial) fun hle => ?_
          exact absurd hlarge (Nat.not_lt.mpr hle)
        · rename_i hle
          rw [EndsIn.mapErr_iff, EndsIn.readExact_iff hs]
          exact ⟨fun h _ => h.resolve_right id, fun h => .inl (h (Nat.not_lt.mp hle))⟩

/-! ## Requests -/

/-- What a request needs behind its request line. -/
def RestFits (maxBodyBytes : Nat) (requestLine : Str) (u : Source) : Prop :=
  (∀ st t, Reaches headerStep maxHeaderLines ⟨BTreeMap.empty, Str.len requestLine⟩ u st t →
    LineIsText t) ∧
  ∀ headers t, (readHeaders (Str.len requestLine)).run u = (.ok headers, t) →
    BodyFits maxBodyBytes headers t

theorem endsIn_readRequestAfter_iff (hs : s.fault = none) (requestLine : Str) :
    EndsIn IsReported (readRequestAfter maxBodyBytes requestLine) s ↔
      (isRequestLine requestLine → Str.len requestLine ≤ maxHeaderBytes →
        RestFits maxBodyBytes requestLine s) := by
  rw [readRequestAfter]
  split
  · rename_i hline
    rw [Bool.not_eq_true'] at hline
    refine iff_of_true (EndsIn.throw_iff.mpr trivial) fun h => ?_
    rw [hline] at h
    cases h
  · rename_i hline
    rw [Bool.not_eq_true, Bool.not_eq_false'] at hline
    split
    · rename_i hlen
      exact iff_of_true (EndsIn.throw_iff.mpr trivial) fun _ hle => absurd hlen (Nat.not_lt.mpr hle)
    · rename_i hlen
      rw [forall_prop_of_true hline, forall_prop_of_true (Nat.not_lt.mp hlen), RestFits,
        EndsIn.bind_iff, endsIn_readHeaders_iff hs]
      refine and_congr_right fun _ => forall₂_congr fun headers t => forall_congr' fun hrun => ?_
      have ht := (keeps_readHeaders Reader.persists_fault (Str.len requestLine)).of_run hrun
      rw [EndsIn.bind_iff, endsIn_readBody_iff (ht.trans hs)]
      exact and_iff_left fun _ _ _ => EndsIn.pure _

theorem endsIn_readRequest_iff (hs : s.fault = none) :
    EndsIn IsReported (readRequest maxBodyBytes) s ↔
      LineIsText s ∧ ∀ requestLine u, TakesRequestLine s requestLine u →
        RestFits maxBodyBytes requestLine u := by
  refine (endsIn_readHttpLine_bind_iff hs ?_).trans (and_congr_right fun _ => ?_)
  · exact EndsIn.pure _
  refine forall₂_congr fun requestLine u => ?_
  have hrest : ∀ t, t.fault = none → (EndsIn IsReported (do
      let request ← readRequestAfter maxBodyBytes requestLine
      pure (some request)) t ↔ (isRequestLine requestLine → Str.len requestLine ≤ maxHeaderBytes →
        RestFits maxBodyBytes requestLine t)) := by
    intro t ht
    rw [EndsIn.bind_iff, endsIn_readRequestAfter_iff ht]
    exact and_iff_left fun _ _ _ => EndsIn.pure _
  constructor
  · intro h htakes
    have hu := fault_of_readHttpLine hs htakes.run_eq
    exact (hrest u hu).mp (h htakes.run_eq) htakes.is_requestLine htakes.len_le
  · intro h hrun
    exact (hrest u (fault_of_readHttpLine hs hrun)).mpr fun hline hlen => h ⟨hrun, hline, hlen⟩

theorem wellformed_of_fits (hfirst : LineIsText s)
    (hrest : ∀ requestLine u, TakesRequestLine s requestLine u →
      RestFits maxBodyBytes requestLine u) : Wellformed maxBodyBytes s := by
  have hbody : ∀ headers t, TakesHead s headers t → BodyFits maxBodyBytes headers t := by
    rintro headers t ⟨requestLine, u, htakes, hheaders⟩
    exact (hrest requestLine u htakes).2 headers t hheaders
  have hsize : ∀ body size v, TakesSize maxBodyBytes s body size v →
      SizeFits maxBodyBytes body size v := by
    rintro body size v ⟨u, sizeLine, ⟨headers, t, hhead, hchunked, hvisits⟩, hrun, hsize⟩
    exact ((hbody headers t hhead).chunks hchunked body u hvisits).2 sizeLine size v hrun hsize
  refine {
    lines := fun t hat => ?_
    body := fun headers t hhead => (hbody headers t hhead).length
    chunks := fun body size v htakes => (hsize body size v htakes).2 }
  cases hat with
  | requestLine => exact hfirst
  | headerLine htakes hreaches => exact (hrest _ _ htakes).1 _ _ hreaches
  | sizeLine hat =>
    obtain ⟨headers, t', hhead, hchunked, hvisits⟩ := hat
    exact ((hbody headers t' hhead).chunks hchunked _ _ hvisits).1
  | trailer htakes hvisits => exact (hsize _ _ _ htakes).1 rfl _ hvisits

theorem Wellformed.restFits (h : Wellformed maxBodyBytes s) {requestLine : Str} {u : Source}
    (htakes : TakesRequestLine s requestLine u) : RestFits maxBodyBytes requestLine u := by
  refine ⟨fun st t hreaches => h.lines t (.headerLine htakes hreaches),
    fun headers t hheaders => ?_⟩
  have hhead : TakesHead s headers t := ⟨requestLine, u, htakes, hheaders⟩
  refine ⟨fun hchunked body v hvisits => ?_, h.body headers t hhead⟩
  have hat : AtSizeLine maxBodyBytes s body v := ⟨headers, t, hhead, hchunked, hvisits⟩
  refine ⟨h.lines v (.sizeLine hat), fun sizeLine size w hrun hsize => ?_⟩
  have htakes : TakesSize maxBodyBytes s body size w := ⟨v, sizeLine, hat, hrun, hsize⟩
  refine ⟨?_, h.chunks body size w htakes⟩
  rintro rfl x hvisits
  exact h.lines x (.trailer htakes hvisits)

/-- The reader ends in a reported error, or in none, exactly on these streams. -/
theorem endsIn_iff_wellformed (hs : s.fault = none) :
    EndsIn IsReported (readRequest maxBodyBytes) s ↔ Wellformed maxBodyBytes s := by
  rw [endsIn_readRequest_iff hs]
  constructor
  · rintro ⟨hfirst, hrest⟩
    exact wellformed_of_fits hfirst hrest
  · intro h
    exact ⟨h.lines s .requestLine, fun requestLine u htakes => h.restFits htakes⟩

/-! ## Answers -/

/-- The outer status decides: the status of the function is always in its header. -/
theorem answersOk_iff_fnAnswer {serde : SerdeJson} {host : Host} {spec : RouteSpec} :
    AnswersOk serde host s spec ↔
      ∃ response, fnAnswer serde host s spec = some (200, response) := by
  constructor
  · rintro ⟨response, -, hanswer, -⟩
    exact ⟨response, hanswer⟩
  · rintro ⟨response, hanswer⟩
    refine ⟨response, writeFnResponse serde 200 response, hanswer, ?_, rfl,
      status_mem_writeFnResponse serde 200 response⟩
    rw [handleStream, hanswer, Option.map_some]

/-- The call is answered as carried out unless the reader fails or panics. -/
theorem answersOk_iff (serde : SerdeJson) (host : Host) (spec : RouteSpec) (hs : s.bytes ≠ []) :
    AnswersOk serde host s spec ↔ EndsIn IsReported (readRequest spec.maxEventBytes) s := by
  rw [answersOk_iff_fnAnswer, EndsIn, fnAnswer, fnInput]
  rcases hrun : (readRequest spec.maxEventBytes).run s with ⟨outcome, t⟩
  cases outcome with
  | ok request =>
    refine iff_of_true ?_ trivial
    cases request with
    | none => exact absurd (bytes_eq_nil_of_readRequest hrun) hs
    | some request =>
      dsimp only
      cases fnRequest serde host request spec with
      | ok normalized => exact ⟨_, rfl⟩
      | error response => exact ⟨_, rfl⟩
  | err error =>
    -- of the errors only a failing read is answered with an outer 502
    cases error with
    | badRequest text => exact iff_of_true ⟨_, rfl⟩ trivial
    | tooLarge => exact iff_of_true ⟨_, rfl⟩ trivial
    | io error =>
      refine iff_of_false ?_ id
      rintro ⟨response, hanswer⟩
      obtain ⟨hstatus, -⟩ := Prod.mk.inj (Option.some.inj hanswer)
      exact absurd hstatus (by decide)
  | panic => exact iff_of_false (by rintro ⟨response, hanswer⟩; cases hanswer) id
  | hang => exact iff_of_false (by rintro ⟨response, hanswer⟩; cases hanswer) id

/-- Malformed bytes are reported as a bad request: the reader ends in no other
    error, and the call is answered as one that was carried out. -/
def ReportsMalformed (serde : SerdeJson) (bytes : List UInt8) (maxBodyBytes : Nat) : Prop :=
  EndsIn IsReported (readRequest maxBodyBytes) ⟨bytes, none⟩ ∧
    ∀ host spec, spec.maxEventBytes = maxBodyBytes → bytes ≠ [] →
      AnswersOk serde host ⟨bytes, none⟩ spec

/-- The bytes of a stream that does not fail are reported if and only if no body
    is cut and no line is something else than UTF-8. -/
theorem reportsMalformed_iff (serde : SerdeJson) (bytes : List UInt8) (maxBodyBytes : Nat) :
    ReportsMalformed serde bytes maxBodyBytes ↔ Wellformed maxBodyBytes ⟨bytes, none⟩ := by
  have hread : EndsIn IsReported (readRequest maxBodyBytes) ⟨bytes, none⟩ ↔
      Wellformed maxBodyBytes ⟨bytes, none⟩ := endsIn_iff_wellformed rfl
  rw [ReportsMalformed, hread]
  refine and_iff_left_of_imp fun hwell host spec hmax hne => ?_
  subst hmax
  exact (answersOk_iff serde host spec hne).mpr (hread.mpr hwell)

theorem ReportsMalformed.run_ne_io {serde : SerdeJson} {bytes : List UInt8}
    (h : ReportsMalformed serde bytes maxBodyBytes) (error : IoError) (t : Source) :
    (readRequest maxBodyBytes).run ⟨bytes, none⟩ ≠ (.err (.io error), t) :=
  fun hrun => (EndsIn.iff_of_err hrun).mp h.1

/-- A body of five bytes is declared, and two are there. -/
theorem not_reportsMalformed : ¬ ∀ serde bytes maxBodyBytes,
    ReportsMalformed serde bytes maxBodyBytes := by
  have hrun : (readRequest 16).run
      ⟨Utf8.encode "POST / HTTP/1.1\r\nContent-Length: 5\r\n\r\nab", none⟩ =
        (.err (.io .unexpectedEof), ⟨[], none⟩) := by decide +kernel
  exact fun h => (h .compact _ 16).run_ne_io _ _ hrun

end OracleFn
