-- SUMMARY: Which spellings of a transfer coding and of a length an accepted request may have.
import ApmeWebMash.Base.Separator
import ApmeWebMash.OracleFn.HttpStream

/-! # Strict framing

The grammar of HTTP/1.1 spells the coding `chunked` out and writes a length in
digits. The reader looks for the letters of the coding anywhere in the value,
and its integer parser also takes a sign. -/

namespace OracleFn

open Numeral (IsNumeral)
open Reader (Visits)

/-! ## What an accepted request used -/

/-- `s` begins with a request line and a header block; `t` is what follows them. -/
def AtBody (s : Source) (headers : BTreeMap Str Str) (t : Source) : Prop :=
  ∃ requestLine u, readHttpLine.run s = (.ok (some requestLine), u) ∧
    (readHeaders (Str.len requestLine)).run u = (.ok headers, t)

/-- A line that is read for the size of a chunk of the body. -/
def IsSizeLine (maxBodyBytes : Nat) (s : Source) (sizeLine : Str) : Prop :=
  ∃ headers t body u v, AtBody s headers t ∧ isChunked headers = true ∧
    Visits (chunkStep maxBodyBytes) [] t body u ∧ readHttpLine.run u = (.ok (some sizeLine), v)

/-- The length of a body that is not chunked. -/
def IsLength (headers : BTreeMap Str Str) (length : Str) : Prop :=
  isChunked headers = false ∧ ∃ value, headers.get "content-length" = some value ∧
    length = Str.trim value

/-- What a size line says, without its extension. -/
def sizeText (sizeLine : Str) : Str := Str.trim (Str.beforeFirst ';' sizeLine)

/-! ## The grammar -/

/-- One of the codings is `chunked`. -/
def NamesChunked (value : Str) : Prop :=
  ∃ coding ∈ value.splitOn ',', Str.eqIgnoreAsciiCase (Str.trim coding) "chunked" = true

/-- One of the codings has `chunked` in its name. -/
def MentionsChunked (value : Str) : Prop :=
  ∃ coding ∈ value.splitOn ',', ("chunked" : Str) <:+: Str.toAsciiLowercase coding

/-- The body was framed as the grammar says. -/
structure StrictFraming (maxBodyBytes : Nat) (s : Source) (r : ParsedRequest) : Prop where
  coding : isChunked r.headers = true →
    ∃ value, r.headers.get "transfer-encoding" = some value ∧ NamesChunked value
  length : ∀ length, IsLength r.headers length → IsNumeral 10 length
  sizes : ∀ sizeLine, IsSizeLine maxBodyBytes s sizeLine → IsNumeral 16 (sizeText sizeLine)

/-- In the header block of the stream no coding only has `chunked` in its name,
    and no length in the stream begins with a sign. -/
structure PlainFraming (maxBodyBytes : Nat) (s : Source) : Prop where
  coding : ∀ headers t, AtBody s headers t → ∀ value,
    headers.get "transfer-encoding" = some value → MentionsChunked value → NamesChunked value
  length : ∀ headers t, AtBody s headers t → ∀ length,
    IsLength headers length → length.head? ≠ some '+'
  sizes : ∀ sizeLine, IsSizeLine maxBodyBytes s sizeLine → (sizeText sizeLine).head? ≠ some '+'

/-! ## What the code accepts -/

variable {maxBodyBytes : Nat} {s s' : Source} {r : ParsedRequest}

/-- The letters are found in the value where they are found in a coding. -/
theorem isChunked_iff (headers : BTreeMap Str Str) :
    isChunked headers = true ↔
      ∃ value, headers.get "transfer-encoding" = some value ∧ MentionsChunked value := by
  have hcontains (value : Str) :
      Str.contains (Str.toAsciiLowercase value) "chunked" = true ↔ MentionsChunked value := by
    rw [Str.contains, decide_eq_true_iff]
    have hjoin : [','].intercalate (value.splitOn ',') = value := List.intercalate_splitOn ','
    conv_lhs => rw [← hjoin]
    exact Separator.isInfix_map_intercalate_iff (by decide) (by decide) (by simp)
  rw [isChunked]
  cases headers.get "transfer-encoding" with
  | none => simp
  | some value =>
    refine (hcontains value).trans ⟨fun hmentions => ⟨value, rfl, hmentions⟩, ?_⟩
    rintro ⟨value', hvalue, hmentions⟩
    exact Option.some.inj hvalue ▸ hmentions

/-- An accepted request is a request line, a header block and a body. -/
theorem readRequest_ok (h : (readRequest maxBodyBytes).run s = (.ok (some r), s')) :
    ∃ t, AtBody s r.headers t ∧ (readBody maxBodyBytes r.headers).run t = (.ok r.body, s') := by
  obtain ⟨line, u, hline, hrest⟩ := Reader.run_bind_ok h
  cases line with
  | none => cases hrest
  | some requestLine =>
    obtain ⟨request, v, hafter, hpure⟩ := Reader.run_bind_ok hrest
    obtain ⟨hrequest, rfl⟩ := Prod.mk.inj hpure
    obtain rfl := Option.some.inj (Outcome.ok.inj hrequest)
    rw [readRequestAfter] at hafter
    split at hafter
    · cases hafter
    · split at hafter
      · cases hafter
      · obtain ⟨headers, t, hheaders, hrest⟩ := Reader.run_bind_ok hafter
        obtain ⟨body, w, hbody, hpure⟩ := Reader.run_bind_ok hrest
        obtain ⟨hrequest, rfl⟩ := Prod.mk.inj hpure
        obtain rfl := Outcome.ok.inj hrequest
        exact ⟨t, ⟨requestLine, u, hline, hheaders⟩, hbody⟩

theorem AtBody.unique {headers headers' : BTreeMap Str Str} {t t' : Source}
    (h : AtBody s headers t) (h' : AtBody s headers' t') : headers = headers' ∧ t = t' := by
  obtain ⟨requestLine, u, hline, hheaders⟩ := h
  obtain ⟨requestLine', u', hline', hheaders'⟩ := h'
  rw [hline] at hline'
  obtain ⟨hrequest, rfl⟩ := Prod.mk.inj hline'
  obtain rfl := Option.some.inj (Outcome.ok.inj hrequest)
  rw [hheaders] at hheaders'
  obtain ⟨hok, rfl⟩ := Prod.mk.inj hheaders'
  exact ⟨Outcome.ok.inj hok, rfl⟩

/-- A length that was used has parsed. -/
theorem exists_length (h : (readRequest maxBodyBytes).run s = (.ok (some r), s')) {length : Str}
    (hlength : IsLength r.headers length) :
    ∃ n, Numeral.fromStrRadix 10 Numeral.usizeMax length = some n := by
  obtain ⟨t, -, hbody⟩ := readRequest_ok h
  obtain ⟨hchunked, value, hvalue, rfl⟩ := hlength
  rw [readBody, hchunked, hvalue] at hbody
  cases hparse : Numeral.fromStrRadix 10 Numeral.usizeMax (Str.trim value) with
  | none => simp [hparse] at hbody
  | some n => exact ⟨n, rfl⟩

/-- A chunk size that was used has parsed. -/
theorem exists_size (h : (readRequest maxBodyBytes).run s = (.ok (some r), s')) {sizeLine : Str}
    (hsize : IsSizeLine maxBodyBytes s sizeLine) :
    ∃ n, Numeral.fromStrRadix 16 Numeral.usizeMax (sizeText sizeLine) = some n := by
  obtain ⟨t, hat, hbody⟩ := readRequest_ok h
  obtain ⟨headers, t', body, u, v, hat', hchunked, hvisits, hline⟩ := hsize
  obtain ⟨rfl, rfl⟩ := hat.unique hat'
  rw [readBody, if_pos hchunked, readChunkedBody,
    hvisits.run_loop (advances_chunkStep maxBodyBytes),
    Reader.loop_eq_bind (advances_chunkStep maxBodyBytes)] at hbody
  obtain ⟨step, w, hstep, -⟩ := Reader.run_bind_ok hbody
  rw [chunkStep, Reader.run_bind, hline, Reader.andThen_ok] at hstep
  cases hparse : chunkSize sizeLine with
  | none => simp [hparse] at hstep
  | some n => exact ⟨n, hparse⟩

/-- An accepted request is framed strictly exactly if no coding only mentions
    `chunked` and no length has a sign. -/
theorem strictFraming_iff (h : (readRequest maxBodyBytes).run s = (.ok (some r), s')) :
    StrictFraming maxBodyBytes s r ↔ PlainFraming maxBodyBytes s := by
  obtain ⟨t, hat, -⟩ := readRequest_ok h
  -- `from_str_radix` admits nothing but digits and a sign before them
  have hlength : ∀ length, IsLength r.headers length →
      (IsNumeral 10 length ↔ length.head? ≠ some '+') := by
    intro length hlength
    obtain ⟨n, hparse⟩ := exists_length h hlength
    exact Numeral.isNumeral_iff_of_fromStrRadix (by decide) hparse
  have hsizes : ∀ sizeLine, IsSizeLine maxBodyBytes s sizeLine →
      (IsNumeral 16 (sizeText sizeLine) ↔ (sizeText sizeLine).head? ≠ some '+') := by
    intro sizeLine hsize
    obtain ⟨n, hparse⟩ := exists_size h hsize
    exact Numeral.isNumeral_iff_of_fromStrRadix (by decide) hparse
  have hcoding : (isChunked r.headers = true →
      ∃ value, r.headers.get "transfer-encoding" = some value ∧ NamesChunked value) ↔
      ∀ value, r.headers.get "transfer-encoding" = some value →
        MentionsChunked value → NamesChunked value := by
    rw [isChunked_iff]
    constructor
    · intro hnamed value hvalue hmentions
      obtain ⟨value', hvalue', hnames⟩ := hnamed ⟨value, hvalue, hmentions⟩
      rw [hvalue] at hvalue'
      exact Option.some.inj hvalue' ▸ hnames
    · rintro hplain ⟨value, hvalue, hmentions⟩
      exact ⟨value, hvalue, hplain value hvalue hmentions⟩
  constructor
  · intro strict
    refine ⟨?_, ?_, fun sizeLine hs => (hsizes sizeLine hs).mp (strict.sizes sizeLine hs)⟩
    · intro headers t' hat'
      obtain ⟨rfl, -⟩ := hat.unique hat'
      exact hcoding.mp strict.coding
    · intro headers t' hat' length hl
      obtain ⟨rfl, -⟩ := hat.unique hat'
      exact (hlength length hl).mp (strict.length length hl)
  · intro plain
    exact ⟨hcoding.mpr (plain.coding _ t hat),
      fun length hl => (hlength length hl).mpr (plain.length _ t hat length hl),
      fun sizeLine hs => (hsizes sizeLine hs).mpr (plain.sizes sizeLine hs)⟩

theorem strictFraming_iff_chunked :
    let s : Source := ⟨Utf8.encode
      "POST / HTTP/1.1\r\nTransfer-Encoding: gzip, Chunked\r\n\r\n2;x\r\nab\r\n0\r\n\r\n", none⟩
    let r : ParsedRequest :=
      ⟨BTreeMap.ofList [("transfer-encoding", "gzip, Chunked")], [97, 98]⟩
    StrictFraming 16 s r ↔ PlainFraming 16 s := by
  intro s r
  have hrun : (readRequest 16).run s = (.ok (some r), ⟨[], none⟩) := by decide +kernel
  exact strictFraming_iff hrun

theorem AtBody.isSizeLine {headers : BTreeMap Str Str} {t u : Source} {sizeLine : Str}
    (h : AtBody s headers t) (hchunked : isChunked headers = true)
    (hline : readHttpLine.run t = (.ok (some sizeLine), u)) : IsSizeLine maxBodyBytes s sizeLine :=
  ⟨headers, t, [], t, u, h, hchunked, .refl [] t, hline⟩

/-- A signed length, a coding `xchunked` and a signed chunk size are accepted. -/
theorem not_strictFraming :
    (let s : Source := ⟨Utf8.encode "POST / HTTP/1.1\r\nContent-Length: +2\r\n\r\nab", none⟩
     let r : ParsedRequest := ⟨BTreeMap.ofList [("content-length", "+2")], [97, 98]⟩
     (readRequest 16).run s = (.ok (some r), ⟨[], none⟩) ∧ ¬ StrictFraming 16 s r) ∧
    (let s : Source :=
      ⟨Utf8.encode "POST / HTTP/1.1\r\nTransfer-Encoding: xchunked\r\n\r\n0\r\n\r\n", none⟩
     let r : ParsedRequest := ⟨BTreeMap.ofList [("transfer-encoding", "xchunked")], []⟩
     (readRequest 16).run s = (.ok (some r), ⟨[], none⟩) ∧ ¬ StrictFraming 16 s r) ∧
    (let s : Source :=
      ⟨Utf8.encode "POST / HTTP/1.1\r\nTransfer-Encoding: chunked\r\n\r\n+0\r\n\r\n", none⟩
     let r : ParsedRequest := ⟨BTreeMap.ofList [("transfer-encoding", "chunked")], []⟩
     (readRequest 16).run s = (.ok (some r), ⟨[], none⟩) ∧ ¬ StrictFraming 16 s r) := by
  refine ⟨⟨by decide +kernel, fun strict => ?_⟩, ⟨by decide +kernel, fun strict => ?_⟩, ?_⟩
  · have hlength := strict.length "+2" ⟨by decide +kernel, "+2", rfl, by decide⟩
    exact absurd (hlength.digits '+' (by decide)) (by decide)
  · obtain ⟨value, hvalue, coding, hcoding, hchunked⟩ := strict.coding (by decide +kernel)
    obtain rfl : ("xchunked" : Str) = value := Option.some.inj hvalue
    have hsplit : List.splitOn ',' ("xchunked" : Str) = [("xchunked" : Str)] := by decide +kernel
    rw [hsplit, List.mem_singleton] at hcoding
    rw [hcoding] at hchunked
    exact absurd hchunked (by decide +kernel)
  · intro s r
    refine ⟨by decide +kernel, fun strict => ?_⟩
    have hat : AtBody s r.headers ⟨Utf8.encode "+0\r\n\r\n", none⟩ :=
      ⟨"POST / HTTP/1.1", ⟨Utf8.encode "Transfer-Encoding: chunked\r\n\r\n+0\r\n\r\n", none⟩,
        by decide +kernel, by decide +kernel⟩
    have hline : readHttpLine.run ⟨Utf8.encode "+0\r\n\r\n", none⟩ =
        (.ok (some ("+0" : Str)), ⟨Utf8.encode "\r\n", none⟩) := by decide +kernel
    have hsize := strict.sizes "+0" (hat.isSizeLine (by decide +kernel) hline)
    exact absurd (hsize.digits '+' (by decide +kernel)) (by decide)

end OracleFn
