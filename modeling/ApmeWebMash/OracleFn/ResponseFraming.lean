-- SUMMARY: A response on the Fn socket reads back as its head and its body, whatever the header values are.
import ApmeWebMash.Base.Separator
import ApmeWebMash.OracleFn.Response

/-! # Framing of responses

A reader of the socket takes the head up to the first empty line, splits it into
lines, and splits each header line at its first colon. No header value can end a
line or the head early, since the writer leaves out what contains a line break,
and no field occurs twice, since the writer removes from the map the fields that
it writes itself. -/

namespace OracleFn

open Lambdas (FunctionResponse)
open Separator (cutFirst splitAll)

/-! ## Reading a response -/

/-- The status line of a response, without its end. -/
def statusLine (outerStatus : Nat) : Str :=
  ("HTTP/1.1 " : Str) ++ Numeral.decimal outerStatus ++ ' ' :: reason outerStatus

/-- A header line of a response, without its end. -/
def fieldLine (header : Str × Str) : Str := header.1 ++ ':' :: ' ' :: header.2

/-- The bytes are a head, the first empty line, and `body`; the head splits into
    the status line and the lines of `headers`. -/
structure ReadsAs (bytes : List UInt8) (outerStatus : Nat) (headers : List (Str × Str))
    (body : List UInt8) : Prop where
  cut : ∃ head : Str, cutFirst [13, 10, 13, 10] bytes = some (Utf8.encode head, body) ∧
    splitAll crlf head = statusLine outerStatus :: headers.map fieldLine
  colon_not_mem : ∀ header ∈ headers, ':' ∉ header.1

/-- The fields that the writer sets in every response. -/
def ownFields (response : FunctionResponse) (body : List UInt8) : List (Str × Str) := [
  ("content-length", Numeral.decimal body.length),
  ("connection", "close"),
  ("fn-http-status", Numeral.decimal response.statusCode),
  ("fn-fdk-version", adapterVersion)]

/-- The body that `write_fn_response` serializes. -/
def fnBody (serde : SerdeJson) (response : FunctionResponse) : List UInt8 :=
  (serde.toVec response.body).getD (Utf8.encode "\x7b\"error\":\"serialization_failed\"\x7d")

/-- The response reads back with the serialized body, with the writer's own
    fields, without a repeated field, and otherwise with exactly those of
    `entries` whose name and value the writer accepts. -/
def FramedWith (serde : SerdeJson) (outerStatus : Nat) (response : FunctionResponse)
    (entries : List (Str × Str)) : Prop :=
  ∃ headers, ReadsAs (writeFnResponse serde outerStatus response).bytes outerStatus headers
      (fnBody serde response) ∧
    (headers.map fun header => Str.toAsciiLowercase header.1).Nodup ∧
    (∀ field ∈ ownFields response (fnBody serde response), field ∈ headers) ∧
    ∀ header, header.1 ∉ (ownFields response (fnBody serde response)).map Prod.fst →
      (header ∈ headers ↔ header ∈ entries ∧ validHeaderName header.1 ∧ validHeaderValue header.2)

/-! ## Lines -/

theorem cr_not_mem_of_isAlphanum {text : Str} (h : ∀ c ∈ text, c.isAlphanum || c == '-') :
    '\r' ∉ text := fun hmem => absurd (h '\r' hmem) (by decide)

theorem cr_not_mem_decimal (n : Nat) : '\r' ∉ Numeral.decimal n :=
  (Numeral.writes_decimal n).not_mem (by decide)

theorem cr_not_mem_statusLine (outerStatus : Nat) : '\r' ∉ statusLine outerStatus := by
  have hreason : '\r' ∉ reason outerStatus := by
    rw [reason.eq_def]
    split <;> decide +kernel
  have hversion : '\r' ∉ ("HTTP/1.1 " : Str) := by decide +kernel
  intro hmem
  rcases List.mem_append.mp hmem with hmem | hmem
  · rcases List.mem_append.mp hmem with hmem | hmem
    · exact hversion hmem
    · exact cr_not_mem_decimal _ hmem
  · rcases List.mem_cons.mp hmem with heq | hmem
    · exact absurd heq (by decide)
    · exact hreason hmem

theorem statusLine_ne_nil (outerStatus : Nat) : statusLine outerStatus ≠ [] :=
  List.append_ne_nil_of_right_ne_nil _ (List.cons_ne_nil _ _)

theorem cr_not_mem_value {value : Str} (h : validHeaderValue value) : '\r' ∉ value :=
  (validHeaderValue_iff.mp h).1

theorem validHeaderName_chars {name : Str} (h : validHeaderName name) :
    ∀ c ∈ name, c.isAlphanum || c == '-' := by
  simp only [validHeaderName, Bool.and_eq_true, List.all_eq_true] at h
  exact h.2

/-- A line that the writer accepts has no carriage return. -/
theorem cr_not_mem_fieldLine {header : Str × Str} (hname : validHeaderName header.1)
    (hvalue : validHeaderValue header.2) : '\r' ∉ fieldLine header := by
  simp only [fieldLine, List.mem_append, List.mem_cons, not_or]
  exact ⟨cr_not_mem_of_isAlphanum (validHeaderName_chars hname), by decide, by decide,
    cr_not_mem_value hvalue⟩

theorem fieldLine_ne_nil (header : Str × Str) : fieldLine header ≠ [] := by
  simp [fieldLine]

/-- Lines with their ends are the lines joined, with one more end. -/
theorem flatMap_lines {lines : List Str} (h : lines ≠ []) :
    lines.flatMap (· ++ crlf) = List.intercalate crlf lines ++ crlf := by
  induction lines with
  | nil => exact absurd rfl h
  | cons line lines ih =>
    cases lines with
    | nil => simp [List.intercalate]
    | cons next lines =>
      rw [List.flatMap_cons, ih (by simp)]
      simp [List.intercalate]

/-! ## The empty line -/

theorem cr_not_mem_encode {line : Str} (h : '\r' ∉ line) : (13 : UInt8) ∉ Utf8.encode line :=
  fun hmem => h ((Utf8.mem_encode_ascii (c := '\r') (by decide)).mp hmem)

/-- A line end that no line end follows is passed over. -/
theorem cutFirst_line {xs rest : List UInt8} (hxs : (13 : UInt8) ∉ xs)
    (hrest : rest.head? ≠ some 13) :
    cutFirst [13, 10, 13, 10] (xs ++ 13 :: 10 :: rest) =
      (cutFirst [13, 10, 13, 10] rest).map
        fun (before, behind) => (xs ++ 13 :: 10 :: before, behind) := by
  have hcr : ¬ ([13, 10, 13, 10] : List UInt8) <+: 13 :: 10 :: rest := by
    intro hprefix
    simp only [List.cons_prefix_cons, true_and] at hprefix
    cases rest with
    | nil => simp at hprefix
    | cons b rest => exact hrest (by simp [(List.cons_prefix_cons.mp hprefix).1.symm])
  have hlf : ¬ ([13, 10, 13, 10] : List UInt8) <+: 10 :: rest := fun hprefix =>
    absurd (List.cons_prefix_cons.mp hprefix).1 (by decide)
  rw [Separator.cutFirst_append_of_not_mem hxs, Separator.cutFirst_cons_of_not_prefix hcr,
    Separator.cutFirst_cons_of_not_prefix hlf, Option.map_map, Option.map_map]
  rfl

/-- The first empty line is the one behind the lines. -/
theorem cutFirst_lines {lines : List Str} (hne : lines ≠ []) (hlines : ∀ line ∈ lines, line ≠ [])
    (hcr : ∀ line ∈ lines, '\r' ∉ line) (body : List UInt8) :
    cutFirst [13, 10, 13, 10]
        (Utf8.encode (List.intercalate crlf lines ++ crlf ++ crlf) ++ body) =
      some (Utf8.encode (List.intercalate crlf lines), body) := by
  have hend : Utf8.encode crlf = [13, 10] := by decide
  induction lines with
  | nil => exact absurd rfl hne
  | cons line lines ih =>
    have hline := cr_not_mem_encode (hcr line List.mem_cons_self)
    cases lines with
    | nil =>
      have hcut : cutFirst [13, 10, 13, 10] (Utf8.encode line ++ [13, 10, 13, 10] ++ body) =
          some (Utf8.encode line, body) := Separator.cutFirst_append hline body
      simpa [List.intercalate, hend] using hcut
    | cons next lines =>
      have hrest := ih (by simp) (fun l hl => hlines l (List.mem_cons_of_mem _ hl))
        fun l hl => hcr l (List.mem_cons_of_mem _ hl)
      have hjoin : List.intercalate crlf (line :: next :: lines) =
          line ++ crlf ++ List.intercalate crlf (next :: lines) := by
        simp [List.intercalate]
      have hnext := List.mem_cons_of_mem line (List.mem_cons_self (a := next) (l := lines))
      have hstart : ∃ after, List.intercalate crlf (next :: lines) = next ++ after := by
        cases lines with
        | nil => exact ⟨[], by simp [List.intercalate]⟩
        | cons last lines =>
          exact ⟨crlf ++ List.intercalate crlf (last :: lines), by simp [List.intercalate]⟩
      -- the next line begins with no line end, so the head goes on
      have hhead : (Utf8.encode (List.intercalate crlf (next :: lines) ++ crlf ++ crlf) ++
          body).head? ≠ some 13 := by
        obtain ⟨after, hafter⟩ := hstart
        have hbytes := mt Utf8.encode_eq_nil_iff.mp (hlines next hnext)
        rw [hafter, List.append_assoc, List.append_assoc, Utf8.encode_append, List.append_assoc,
          List.head?_append_of_ne_nil _ hbytes]
        exact fun heq => cr_not_mem_encode (hcr next hnext) (List.mem_of_head? heq)
      have hcut := cutFirst_line hline hhead
      rw [hrest] at hcut
      simpa [hjoin, hend] using hcut

/-! ## The header section -/

/-- The two fields that every response ends with. -/
def lastFields (body : List UInt8) : List (Str × Str) :=
  [("content-length", Numeral.decimal body.length), ("connection", "close")]

/-- The fields of a response, in the order in which they are written. -/
def WireResponse.fields (response : WireResponse) : List (Str × Str) :=
  response.headers ++ lastFields response.body

theorem fieldLine_length (n : Nat) :
    fieldLine ("content-length", Numeral.decimal n) =
      ("content-length: " : Str) ++ Numeral.decimal n := by
  have h : ("content-length: " : Str) = ("content-length" : Str) ++ [':', ' '] := by decide +kernel
  rw [h, List.append_assoc]
  rfl

theorem fieldLine_close : fieldLine ("connection", "close") = "connection: close" := by
  decide +kernel

/-- What is written is the lines with their ends, an empty line, and the body. -/
theorem bytes_eq (response : WireResponse) :
    response.bytes = Utf8.encode (List.intercalate crlf
      (statusLine response.status :: response.fields.map fieldLine) ++ crlf ++ crlf) ++
        response.body := by
  have hlines : (statusLine response.status :: response.fields.map fieldLine).flatMap (· ++ crlf) =
      (statusLine response.status ++ crlf) ++
        response.headers.flatMap (fun header => fieldLine header ++ crlf) ++
        ((("content-length: " : Str) ++ Numeral.decimal response.body.length) ++ crlf ++
          "connection: close" ++ crlf) := by
    rw [← fieldLine_length, ← fieldLine_close]
    simp only [WireResponse.fields, lastFields, List.flatMap_cons, List.flatMap_nil,
      List.map_append, List.map_cons, List.map_nil, List.flatMap_append, List.flatMap_map,
      List.append_assoc, List.append_nil]
  rw [← flatMap_lines (List.cons_ne_nil _ _), hlines, List.append_assoc]
  rfl

theorem mem_lastFields {header : Str × Str} {body : List UInt8} (h : header ∈ lastFields body) :
    validHeaderName header.1 ∧ validHeaderValue header.2 := by
  have hnames : ∀ name ∈ (["content-length", "connection"] : List Str), validHeaderName name := by
    decide
  simp only [List.forall_mem_cons] at hnames
  obtain ⟨hlength, hconnection, -⟩ := hnames
  rcases List.mem_cons.mp h with rfl | h
  · exact ⟨hlength, validHeaderValue_decimal _⟩
  · rw [List.mem_singleton.mp h]
    exact ⟨hconnection, by decide⟩

/-- A response whose header fields the writer accepts reads back. -/
theorem readsAs_fields {response : WireResponse}
    (h : ∀ header ∈ response.headers, validHeaderName header.1 ∧ validHeaderValue header.2) :
    ReadsAs response.bytes response.status response.fields response.body := by
  have hvalid : ∀ header ∈ response.fields,
      validHeaderName header.1 ∧ validHeaderValue header.2 := by
    intro header hmem
    rcases List.mem_append.mp hmem with hmem | hmem
    · exact h header hmem
    · exact mem_lastFields hmem
  have hlines : ∀ line ∈ statusLine response.status :: response.fields.map fieldLine,
      line ≠ [] ∧ '\r' ∉ line := by
    intro line hline
    rcases List.mem_cons.mp hline with rfl | hline
    · exact ⟨statusLine_ne_nil _, cr_not_mem_statusLine _⟩
    · obtain ⟨header, hheader, rfl⟩ := List.mem_map.mp hline
      obtain ⟨hname, hvalue⟩ := hvalid header hheader
      exact ⟨fieldLine_ne_nil header, cr_not_mem_fieldLine hname hvalue⟩
  refine ⟨⟨List.intercalate crlf (statusLine response.status :: response.fields.map fieldLine),
    ?_, ?_⟩, fun header hheader hcolon => ?_⟩
  · rw [bytes_eq]
    exact cutFirst_lines (List.cons_ne_nil _ _) (fun line hline => (hlines line hline).1)
      (fun line hline => (hlines line hline).2) response.body
  · exact Separator.splitAll_intercalate (List.cons_ne_nil _ _) fun line hline =>
      (hlines line hline).2
  · exact absurd (validHeaderName_chars (hvalid header hheader).1 ':' hcolon) (by decide)

/-- Bytes read back in at most one way. -/
theorem ReadsAs.unique {bytes body body' : List UInt8} {outerStatus : Nat}
    {headers headers' : List (Str × Str)} (h : ReadsAs bytes outerStatus headers body)
    (h' : ReadsAs bytes outerStatus headers' body') : headers = headers' ∧ body = body' := by
  obtain ⟨head, hcut, hsplit⟩ := h.cut
  obtain ⟨head', hcut', hsplit'⟩ := h'.cut
  obtain ⟨hhead, rfl⟩ := Prod.mk.inj (Option.some.inj (hcut.symm.trans hcut'))
  obtain rfl := Utf8.encode_injective hhead
  have hlines := (List.cons.inj (hsplit.symm.trans hsplit')).2
  have hparse : ∀ headers : List (Str × Str), (∀ header ∈ headers, ':' ∉ header.1) →
      (headers.map fieldLine).map (Str.splitOnce ':') =
        headers.map fun header => some (header.1, ' ' :: header.2) := by
    intro headers hcolon
    rw [List.map_map]
    exact List.map_congr_left fun header hmem => Str.splitOnce_append (hcolon header hmem)
  have hparsed := congrArg (List.map (Str.splitOnce ':')) hlines
  rw [hparse headers h.colon_not_mem, hparse headers' h'.colon_not_mem] at hparsed
  refine ⟨List.map_injective_iff.mpr ?_ hparsed, rfl⟩
  rintro ⟨name, value⟩ ⟨name', value'⟩ heq
  simpa using heq

/-! ## The header map -/

variable {response : FunctionResponse}

/-- A name that the writer does not set is looked up in the map of the response,
    with its default. -/
theorem get_fnHeaders_of_not_own {name : Str} {body : List UInt8}
    (h : name ∉ (ownFields response body).map Prod.fst) :
    (fnHeaders response).get name =
      (response.headers.orInsert "content-type" "application/json").get name := by
  have htype : ("content-type" : Str) ∉ (ownFields response body).map Prod.fst := by
    change ("content-type" : Str) ∉
      (["content-length", "connection", "fn-http-status", "fn-fdk-version"] : List Str)
    decide
  simp only [ownFields, List.map_cons, List.map_nil, List.mem_cons, List.not_mem_nil, or_false,
    not_or] at h htype
  obtain ⟨hlength, hconnection, hstatus, hversion⟩ := h
  obtain ⟨htlength, htconnection, -, -⟩ := htype
  simp only [fnHeaders, BTreeMap.get_insert, BTreeMap.get_orInsert, BTreeMap.get_remove, hlength,
    hconnection, hstatus, hversion, htlength, htconnection, ↓reduceIte]
  congr

/-- The two fields that the writer puts last are not in the map it hands on. -/
theorem get_fnHeaders_last (response : FunctionResponse) :
    ∀ name ∈ (["content-length", "connection"] : List Str), (fnHeaders response).get name = none := by
  have hne : ∀ name ∈ (["content-length", "connection"] : List Str),
      name ≠ "fn-fdk-version" ∧ name ≠ "fn-http-status" ∧ name ≠ "content-type" ∧
        (name = "connection" ∨ name = "content-length") := by decide
  intro name hname
  obtain ⟨hversion, hstatus, htype, hremoved⟩ := hne name hname
  simp only [fnHeaders, BTreeMap.get_insert, BTreeMap.get_orInsert, BTreeMap.get_remove, hversion,
    hstatus, htype, ↓reduceIte]
  rcases hremoved with hremoved | hremoved <;> simp [hremoved]

theorem get_fnHeaders_version (response : FunctionResponse) :
    (fnHeaders response).get "fn-fdk-version" = some adapterVersion := by
  simp only [fnHeaders, BTreeMap.get_insert, ↓reduceIte]

/-- Without capitals in the map of the response, there are none in the map that
    the writer hands on. -/
theorem isUpper_fnHeaders
    (h : ∀ header ∈ response.headers.entries, ∀ c ∈ header.1, c.isUpper = false) :
    ∀ header ∈ (fnHeaders response).entries, ∀ c ∈ header.1, c.isUpper = false := by
  have hown : ∀ name ∈ ([
      "content-length", "connection", "content-type", "fn-http-status", "fn-fdk-version"] : List Str),
      name.all fun c => decide (c.isUpper = false) := by decide
  rintro ⟨name, value⟩ hmem
  by_cases hname : name ∈ ([
      "content-length", "connection", "content-type", "fn-http-status", "fn-fdk-version"] : List Str)
  · exact Str.forall_mem (hown name hname)
  · have hget := BTreeMap.get_eq_some_iff.mpr hmem
    rw [get_fnHeaders hname] at hget
    exact h _ (BTreeMap.get_eq_some_iff.mp hget)

/-! ## Responses are framed -/

theorem nodup_fields {body : List UInt8}
    (h : ∀ header ∈ response.headers.entries, ∀ c ∈ header.1, c.isUpper = false)
    {headers : List (Str × Str)} (hsub : headers.Sublist (fnHeaders response).entries) :
    ((headers ++ lastFields body).map fun header => Str.toAsciiLowercase header.1).Nodup := by
  have hlast : ∀ name ∈ (["content-length", "connection"] : List Str),
      name.all fun c => decide (c.isUpper = false) := by decide
  have hnames : ∀ header ∈ headers ++ lastFields body,
      Str.toAsciiLowercase header.1 = header.1 := by
    intro header hmem
    refine Str.toAsciiLowercase_eq_self ?_
    rcases List.mem_append.mp hmem with hmem | hmem
    · exact isUpper_fnHeaders h header (hsub.subset hmem)
    · exact Str.forall_mem (hlast header.1 (List.mem_map_of_mem (f := Prod.fst) hmem))
  rw [List.map_congr_left hnames, List.map_append, List.nodup_append]
  refine ⟨?_, ?_, ?_⟩
  · have hsorted := (fnHeaders response).sorted.sublist hsub
    exact List.pairwise_map.mpr (hsorted.imp fun hlt => ne_of_lt hlt)
  · change (["content-length", "connection"] : List Str).Nodup
    decide
  · rintro name hname last hlast rfl
    obtain ⟨⟨_, value⟩, hmem, rfl⟩ := List.mem_map.mp hname
    have hget := BTreeMap.get_eq_some_iff.mpr (hsub.subset hmem)
    rw [get_fnHeaders_last response _ hlast] at hget
    cases hget

/-- The bytes of a response are its head, the first empty line and the body. The
    head has the writer's own fields, no field twice, and otherwise exactly the
    acceptable entries of the header map, with its default content type. -/
theorem writeFnResponse_framed (serde : SerdeJson) (outerStatus : Nat)
    (h : ∀ header ∈ response.headers.entries, ∀ c ∈ header.1, c.isUpper = false) :
    FramedWith serde outerStatus response
      (response.headers.orInsert "content-type" "application/json").entries := by
  have hmem := @mem_writeFnResponse serde outerStatus response
  refine ⟨(writeFnResponse serde outerStatus response).fields, readsAs_fields ?_,
    nodup_fields h List.filter_sublist, ?_, ?_⟩
  · rintro ⟨name, value⟩ hheader
    exact (hmem.mp hheader).2
  · simp only [ownFields, List.forall_mem_cons]
    refine ⟨List.mem_append_right _ List.mem_cons_self,
      List.mem_append_right _ (List.mem_cons_of_mem _ List.mem_cons_self),
      List.mem_append_left _ (status_mem_writeFnResponse serde outerStatus response),
      List.mem_append_left _ (hmem.mpr ⟨get_fnHeaders_version response, by decide, by decide⟩),
      by simp⟩
  · rintro ⟨name, value⟩ hown
    have hlast : (name, value) ∉ lastFields (writeFnResponse serde outerStatus response).body := by
      intro hlast
      refine hown (List.mem_map_of_mem (f := Prod.fst) ?_)
      exact List.mem_append_left ((ownFields response (fnBody serde response)).drop 2) hlast
    rw [WireResponse.fields, List.mem_append, or_iff_left hlast, hmem,
      get_fnHeaders_of_not_own hown, BTreeMap.get_eq_some_iff]

/-- With a value that has an empty line in it, and a length of its own. -/
theorem writeFnResponse_framed_split :
    let headers : BTreeMap Str Str := BTreeMap.ofList [("content-length", "0"),
      ("x-note", "a\r\n\r\nb"), ("x-request-id", "r-1")]
    FramedWith .compact 200 ⟨202, headers, .object []⟩
      (headers.orInsert "content-type" "application/json").entries := by
  intro headers
  have hall : ∀ header ∈ headers.entries, header.1.all fun c => decide (c.isUpper = false) := by
    decide +kernel
  exact writeFnResponse_framed .compact 200 fun header hmem => Str.forall_mem (hall header hmem)

/-- A response without a content type is written with one. -/
theorem not_framedWith_own_entries :
    ¬ FramedWith .compact 200 ⟨202, BTreeMap.empty, .object []⟩
      (BTreeMap.empty : BTreeMap Str Str).entries := by
  rintro ⟨headers, hreads, -, -, hentries⟩
  have hwritten := @readsAs_fields (writeFnResponse .compact 200 ⟨202, BTreeMap.empty, .object []⟩)
    (by decide +kernel)
  obtain ⟨rfl, -⟩ := hreads.unique hwritten
  have hmem : (("content-type" : Str), ("application/json" : Str)) ∈
      (writeFnResponse .compact 200 ⟨202, BTreeMap.empty, .object []⟩).fields := by decide +kernel
  obtain ⟨hnone, -⟩ := (hentries _ (by decide +kernel)).mp hmem
  cases hnone

end OracleFn
