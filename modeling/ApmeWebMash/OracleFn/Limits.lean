-- SUMMARY: Whatever `readRequest` accepts is within its limits, and it always terminates without a panic.
import ApmeWebMash.OracleFn.HttpStream

/-! # Limits

The limits are loop invariants: the header loop carries a bound on the entries
and on their bytes, the chunk loop a bound on the body. The additions of the
source saturate except one, `start + size`; below `usize::MAX` the check in
front of it leaves it no room to overflow. -/

namespace OracleFn

open Reader (Step Meets)

/-! ## Header block -/

/-- The bytes of a lower-cased header name. -/
def isLowerNameChar (c : Char) : Bool :=
  c.isLower || c.isDigit || c == '-'

/-- The length of a header: its name and its value. -/
def headerLength (header : Str × Str) : Nat :=
  Str.len header.1 + Str.len header.2

/-- A header whose name is lower-case and whose value has no control character. -/
structure CleanHeader (header : Str × Str) : Prop where
  name_ne_nil : header.1 ≠ []
  name_chars : ∀ c ∈ header.1, isLowerNameChar c
  value_chars : ∀ c ∈ header.2, Str.isControl c = false

/-- The invariant of the header loop after `lines` lines. -/
structure HeaderInvariant (lines : Nat) (st : HeaderState) : Prop where
  entries_le : st.headers.entries.length ≤ lines
  clean : ∀ header ∈ st.headers.entries, CleanHeader header
  bytes_le : (st.headers.entries.map headerLength).sum ≤ st.headerBytes
  headerBytes_le : st.headerBytes ≤ maxHeaderBytes

theorem isLowerNameChar_of_mem {name : Str} {c : Char}
    (hname : (Str.toAsciiLowercase name).all isHeaderNameChar)
    (hc : c ∈ Str.toAsciiLowercase name) : isLowerNameChar c := by
  have hchar := List.all_eq_true.mp hname c hc
  obtain ⟨d, -, rfl⟩ := List.mem_map.mp hc
  simp only [isHeaderNameChar, isLowerNameChar, Bool.or_eq_true, Str.isAlphanum_iff,
    Str.isUpper_toLower, Bool.false_eq_true, false_or] at hchar ⊢
  exact hchar

/-- Adding a header costs its name, its value and one separator. -/
theorem sum_addHeader_le (headers : BTreeMap Str Str) (name value : Str) :
    ((addHeader headers name value).entries.map headerLength).sum ≤
      (headers.entries.map headerLength).sum + (Str.len name + 1 + Str.len value) := by
  refine BTreeMap.sum_upsertEntries_le ?_ (fun x => ?_) headers.entries
  · simp only [headerLength]
    omega
  · have hcomma : ','.utf8Size = 1 := by decide
    simp only [headerLength, Str.len_append, Str.len_cons, hcomma]
    omega

theorem clean_addHeader {headers : BTreeMap Str Str} {name value : Str}
    (hheaders : ∀ header ∈ headers.entries, CleanHeader header)
    (hnew : CleanHeader (name, value)) :
    ∀ header ∈ (addHeader headers name value).entries, CleanHeader header := by
  intro header hmem
  rcases BTreeMap.mem_upsertEntries hmem with hold | rfl | ⟨x, hx, rfl⟩
  · exact hheaders header hold
  · exact hnew
  · refine ⟨hnew.name_ne_nil, hnew.name_chars, fun c hc => ?_⟩
    rcases List.mem_append.mp hc with hc | hc
    · exact (hheaders _ hx).value_chars c hc
    · rcases List.mem_cons.mp hc with rfl | hc
      · decide
      · exact hnew.value_chars c hc

/-- A line that goes on keeps the invariant. -/
theorem headerLine_next {lines : Nat} {st st' : HeaderState} {line : Str}
    (hinv : HeaderInvariant lines st) (h : headerLine st line = .ok (.next st')) :
    HeaderInvariant (lines + 1) st' := by
  simp only [headerLine] at h
  split at h
  · cases h
  · rename_i hbytes
    split at h
    · cases h
    · split at h
      · cases h
      · rename_i name value hsplit
        split at h
        · cases h
        · rename_i hname
          split at h
          · cases h
          · rename_i hvalue
            obtain rfl := Step.next.inj (Except.ok.inj h)
            simp only [Bool.or_eq_true, decide_eq_true_eq, Bool.not_eq_true', not_or,
              Bool.not_eq_false] at hname
            -- the line holds the name, the colon and the value
            have hline := congrArg Str.len (Str.splitOnce_eq_some hsplit)
            have hcolon : ':'.utf8Size = 1 := by decide
            have hnameLen := Str.len_le_of_isInfix (Str.trim_isInfix name)
            have hvalueLen := Str.len_le_of_isInfix (Str.trim_isInfix value)
            have hsum := sum_addHeader_le st.headers (Str.toAsciiLowercase (Str.trim name))
              (Str.trim value)
            have hle := (Numeral.saturatingAdd_le_iff (by decide)).mp (Nat.not_lt.mp hbytes)
            have hsat := Numeral.saturatingAdd_eq (by decide) hle
            simp only [Str.len_append, Str.len_cons, hcolon, Str.len_toAsciiLowercase] at hline hsum
            refine ⟨?_, ?_, ?_, Nat.not_lt.mp hbytes⟩
            · exact le_trans (BTreeMap.length_upsertEntries_le _ _ _ _)
                (Nat.add_le_add_right hinv.entries_le 1)
            · refine clean_addHeader hinv.clean ⟨hname.1, fun c hc => ?_, fun c hc => ?_⟩
              · exact isLowerNameChar_of_mem hname.2 hc
              · simpa using List.any_eq_false.mp (by simpa using hvalue) c hc
            · have := hinv.bytes_le
              dsimp only
              rw [hsat]
              omega

/-- A line that ends the block leaves the headers as they are. -/
theorem headerLine_done_headers {st : HeaderState} {line : Str} {headers : BTreeMap Str Str}
    (h : headerLine st line = .ok (.done headers)) : headers = st.headers := by
  simp only [headerLine] at h
  split at h
  · cases h
  · split at h
    · exact (Step.done.inj (Except.ok.inj h)).symm
    · split at h
      · cases h
      · split at h
        · cases h
        · split at h <;> cases h

/-- What the header block of an accepted request satisfies. -/
structure HeadersWithinLimits (headers : BTreeMap Str Str) : Prop where
  entries_le : headers.entries.length ≤ 127
  clean : ∀ header ∈ headers.entries, CleanHeader header
  bytes_le : (headers.entries.map headerLength).sum ≤ 65536

theorem meets_readHeaders {headerBytes : Nat} (h : headerBytes ≤ maxHeaderBytes) (s : Source) :
    Meets (readHeaders headerBytes) s fun headers _ => HeadersWithinLimits headers := by
  have hstep : ∀ lines st s, HeaderInvariant lines st →
      Meets (headerStep st) s fun r _ => r.All (HeaderInvariant (lines + 1))
        fun headers => ∃ st, HeaderInvariant lines st ∧ headers = st.headers := by
    intro lines st s hinv
    refine (meets_readHttpLine s).bind fun line t _ => ?_
    cases line with
    | none => exact Meets.throw _
    | some line =>
      refine Meets.ofExcept fun r hr => ?_
      cases r with
      | next st' => exact headerLine_next hinv hr
      | done headers => exact ⟨st, hinv, headerLine_done_headers hr⟩
  have hinit : HeaderInvariant 0 ⟨BTreeMap.empty, headerBytes⟩ :=
    ⟨Nat.le_refl 0, by simp [BTreeMap.empty], Nat.zero_le _, h⟩
  refine (Meets.forN hstep maxHeaderLines hinit s).bind fun r t hr => ?_
  cases r with
  | next st' => exact Meets.throw _
  | done headers =>
    obtain ⟨lines, hlines, st, hinv, rfl⟩ := hr
    refine Meets.pure ⟨?_, hinv.clean, hinv.bytes_le.trans hinv.headerBytes_le⟩
    have : lines < 128 := by simpa [maxHeaderLines] using hlines
    exact hinv.entries_le.trans (Nat.le_of_lt_succ this)

/-! ## Body -/

theorem meets_trailers (s : Source) :
    Meets (Reader.loop trailerStep ()) s fun _ s' => s'.bytes.length ≤ s.bytes.length := by
  have hstep : ∀ (st : Unit) s, True → Meets (trailerStep st) s fun r s' =>
      r.All (fun _ => True ∧ s'.bytes.length < s.bytes.length)
        (fun _ => True ∧ s'.bytes.length ≤ s.bytes.length) := by
    intro st s _
    refine (meets_readHttpLine s).bind fun line t ht => ?_
    cases line with
    | none => exact Meets.throw _
    | some trailer =>
      by_cases hnil : trailer = []
      · simp only [hnil, ↓reduceIte]
        exact Meets.pure ⟨trivial, ht.1⟩
      · simp only [hnil, ↓reduceIte]
        exact Meets.pure ⟨trivial, ht.2 rfl⟩
  exact (Meets.loop hstep trivial s).mono fun _ _ h => h.2

theorem meets_readChunk {body : List UInt8} {size : Nat}
    (hfits : body.length + size ≤ Numeral.usizeMax) (s : Source) :
    Meets (readChunk body size) s fun r s' =>
      ∃ chunk, chunk.length = size ∧ r = .next (body ++ chunk) ∧
        s'.bytes.length ≤ s.bytes.length := by
  rw [readChunk, if_neg (Nat.not_lt.mpr hfits)]
  refine (Meets.readExact size s).mapErr.bind fun chunk t hchunk => ?_
  refine (Meets.readExact 2 t).mapErr.bind fun terminator u hterm => ?_
  split
  · exact Meets.throw _
  · exact Meets.pure ⟨chunk, hchunk.1, rfl, by omega⟩

theorem meets_chunkStep {maxBodyBytes : Nat} (hmax : maxBodyBytes < Numeral.usizeMax)
    (body : List UInt8) (hbody : body.length ≤ maxBodyBytes) (s : Source) :
    Meets (chunkStep maxBodyBytes body) s fun r s' =>
      r.All (fun body' => body'.length ≤ maxBodyBytes ∧ s'.bytes.length < s.bytes.length)
        (fun body' => body'.length ≤ maxBodyBytes ∧ s'.bytes.length ≤ s.bytes.length) := by
  refine (meets_readHttpLine s).bind fun line t ht => ?_
  cases line with
  | none => exact Meets.throw _
  | some sizeLine =>
    have hlt := ht.2 rfl
    dsimp only
    split
    · exact Meets.throw _
    · rename_i size _
      split
      · refine (meets_trailers t).bind fun _ u hu => Meets.pure ⟨hbody, by omega⟩
      · split
        · exact Meets.throw _
        · rename_i hsize
          -- below `usize::MAX` the check suffices for the unchecked addition behind it
          have hsum := (Numeral.saturatingAdd_le_iff hmax).mp (Nat.not_lt.mp hsize)
          refine (meets_readChunk (hsum.trans hmax.le) t).mono fun r u hr => ?_
          obtain ⟨chunk, hlen, rfl, hu⟩ := hr
          exact ⟨by rw [List.length_append, hlen]; exact hsum, by omega⟩

theorem meets_readBody {maxBodyBytes : Nat} (hmax : maxBodyBytes < Numeral.usizeMax)
    (headers : BTreeMap Str Str) (s : Source) :
    Meets (readBody maxBodyBytes headers) s fun body _ => body.length ≤ maxBodyBytes := by
  rw [readBody]
  split
  · have hstep := fun (body : List UInt8) s hbody => meets_chunkStep hmax body hbody s
    exact (Meets.loop hstep (Nat.zero_le _) s).mono fun _ _ h => h.1
  · split
    · exact Meets.pure (Nat.zero_le _)
    · split
      · exact Meets.throw _
      · split
        · exact Meets.throw _
        · rename_i hlength
          exact (Meets.readExact _ s).mapErr.mono fun bs _ h => h.1 ▸ Nat.not_lt.mp hlength

/-! ## Request -/

/-- What an accepted request satisfies, whatever bytes it was read from. -/
structure WithinLimits (maxBodyBytes : Nat) (request : ParsedRequest) : Prop where
  body_le : request.body.length ≤ maxBodyBytes
  headers : HeadersWithinLimits request.headers

theorem meets_readRequest {maxBodyBytes : Nat} (hmax : maxBodyBytes < Numeral.usizeMax)
    (s : Source) :
    Meets (readRequest maxBodyBytes) s fun r _ => ∀ request, r = some request →
      WithinLimits maxBodyBytes request := by
  refine (meets_readHttpLine s).bind fun line t _ => ?_
  cases line with
  | none => exact Meets.pure fun _ h => by cases h
  | some requestLine =>
    have hafter : Meets (readRequestAfter maxBodyBytes requestLine) t fun request _ =>
        WithinLimits maxBodyBytes request := by
      rw [readRequestAfter]
      split
      · exact Meets.throw _
      · split
        · exact Meets.throw _
        · rename_i hline
          refine (meets_readHeaders (Nat.not_lt.mp hline) t).bind fun headers u hheaders => ?_
          exact (meets_readBody hmax headers u).bind fun body _ hbody => Meets.pure ⟨hbody, hheaders⟩
    exact hafter.bind fun request _ hrequest => Meets.pure fun _ h => Option.some.inj h ▸ hrequest

/-- On any source, `read_request` terminates without a panic, and what it
    accepts is within its limits. A source has an end, so streams that go on for
    ever are outside the model, and so are the lengths beyond `isize::MAX`, for
    which nothing can be allocated. -/
theorem readRequest_within_limits {maxBodyBytes : Nat} (hmax : maxBodyBytes < Numeral.usizeMax)
    (s : Source) :
    ((readRequest maxBodyBytes).run s).1 ≠ .panic ∧ ((readRequest maxBodyBytes).run s).1 ≠ .hang ∧
      ∀ request s', (readRequest maxBodyBytes).run s = (.ok (some request), s') →
        WithinLimits maxBodyBytes request := by
  have h := meets_readRequest hmax s
  exact ⟨h.run_ne_panic, h.run_ne_hang, fun request _ hrun => h.of_run_ok hrun request rfl⟩

theorem within_limits_chunked :
    WithinLimits 7 ⟨BTreeMap.ofList [("transfer-encoding", "chunked")], [123, 125]⟩ :=
  (readRequest_within_limits (by decide)
    ⟨Utf8.encode "POST / HTTP/1.1\r\nTransfer-Encoding: chunked\r\n\r\n2\r\n\x7b\x7d\r\n0\r\n\r\n", none⟩).2.2
    _ ⟨[], none⟩ (by decide +kernel)

end OracleFn
