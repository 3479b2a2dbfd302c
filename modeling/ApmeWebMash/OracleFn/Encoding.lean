-- SUMMARY: What an HTTP/1.1 client writes, and that `readRequest` reads exactly that back.
import ApmeWebMash.OracleFn.HttpStream

/-! # Encoding

The writing side of the wire format: a request line, header lines, and one of
the three body framings. A client is free in the case of names and hex digits,
in the white space around values, in how it cuts a chunked body, and in chunk
extensions and trailers. The reader undoes all of it and stops at the end of
the message. -/

namespace OracleFn

open Reader (Step)

/-! ## Messages -/

/-- A header line. The value includes the white space around it. -/
structure HeaderField where
  name : Str
  value : Str
  name_ne_nil : name ≠ []
  name_chars : ∀ c ∈ name, isHeaderNameChar c
  value_chars : ∀ c ∈ value, Str.isControl c = false

namespace HeaderField

/-- The line without its end. -/
def line (field : HeaderField) : Str := field.name ++ ':' :: field.value

/-- The name that the field is found under. -/
def key (field : HeaderField) : Str := Str.toAsciiLowercase field.name

end HeaderField

/-- What may stand behind a chunk size: nothing, or `;` and any text on the
    same line. -/
def IsChunkExtension (text : Str) : Prop :=
  (text = [] ∨ text.head? = some ';') ∧ '\r' ∉ text ∧ '\n' ∉ text

/-- A chunk of a body. -/
structure Chunk where
  size : Str
  extension : Str
  data : List UInt8
  data_ne_nil : data ≠ []
  size_writes : Numeral.Writes 16 size data.length
  extension_ok : IsChunkExtension extension

/-- The chunk of size zero that ends a body, and the trailer lines after it. -/
structure LastChunk where
  size : Str
  extension : Str
  trailers : List Str
  size_writes : Numeral.Writes 16 size 0
  extension_ok : IsChunkExtension extension
  trailers_ok : ∀ trailer ∈ trailers, trailer ≠ [] ∧ '\r' ∉ trailer ∧ '\n' ∉ trailer

/-- How a body is delimited. -/
inductive Framing where
  | empty
  | contentLength (body : List UInt8)
  | chunked (chunks : List Chunk) (last : LastChunk)

def Chunk.bytes (chunk : Chunk) : List UInt8 :=
  Utf8.encode (chunk.size ++ chunk.extension ++ crlf) ++ chunk.data ++ [13, 10]

def LastChunk.bytes (last : LastChunk) : List UInt8 :=
  Utf8.encode (last.size ++ last.extension ++ crlf) ++
    last.trailers.flatMap (fun trailer => Utf8.encode (trailer ++ crlf)) ++ Utf8.encode crlf

namespace Framing

/-- The body that is sent. -/
def body : Framing → List UInt8
  | .empty => []
  | .contentLength body => body
  | .chunked chunks _ => chunks.flatMap Chunk.data

/-- The bytes that carry it. -/
def bytes : Framing → List UInt8
  | .empty => []
  | .contentLength body => body
  | .chunked chunks last => chunks.flatMap Chunk.bytes ++ last.bytes

/-- The header fields announce the framing. -/
def DeclaredBy (fields : List HeaderField) : Framing → Prop
  | .empty => ∀ field ∈ fields, field.key ≠ "content-length" ∧ field.key ≠ "transfer-encoding"
  | .contentLength body =>
    (∃ field, fields.filter (fun field => field.key = ("content-length" : Str)) = [field] ∧
      Numeral.Writes 10 (Str.trim field.value) body.length) ∧
    ∀ field ∈ fields, field.key ≠ "transfer-encoding"
  | .chunked _ _ => ∃ field ∈ fields, field.key = "transfer-encoding" ∧
      Str.toAsciiLowercase (Str.trim field.value) = "chunked"

end Framing

/-- A word of the request line. -/
def IsToken (token : Str) : Prop :=
  token ≠ [] ∧ ∀ c ∈ token, Str.isWhitespace c = false

/-- A request as a client sends it. -/
structure Message where
  method : Str
  target : Str
  version : Str
  fields : List HeaderField
  framing : Framing
  method_token : IsToken method
  target_token : IsToken target
  version_token : IsToken version
  version_http : Str.startsWith version "HTTP/1."
  fields_le : fields.length ≤ 127
  bytes_le : Str.len (method ++ ' ' :: target ++ ' ' :: version) +
    (fields.map fun field => Str.len field.line).sum ≤ 65536
  declared : framing.DeclaredBy fields

namespace Message

def requestLine (message : Message) : Str :=
  message.method ++ ' ' :: message.target ++ ' ' :: message.version

/-- The bytes of the message. -/
def bytes (message : Message) : List UInt8 :=
  Utf8.encode (message.requestLine ++ crlf) ++
    message.fields.flatMap (fun field => Utf8.encode (field.line ++ crlf)) ++
    Utf8.encode crlf ++ message.framing.bytes

end Message

/-! ## Lines of a message -/

theorem IsToken.not_mem_newline {token : Str} (h : IsToken token) : '\n' ∉ token := by
  intro hmem
  exact absurd (h.2 '\n' hmem) (by decide)

theorem Message.not_mem_requestLine (message : Message) : '\n' ∉ message.requestLine := by
  simp [requestLine, message.method_token.not_mem_newline, message.target_token.not_mem_newline,
    message.version_token.not_mem_newline]

theorem Message.isRequestLine_requestLine (message : Message) :
    isRequestLine message.requestLine := by
  have hsplit : Str.splitWhitespace message.requestLine =
      [message.method, message.target, message.version] := by
    rw [requestLine, List.append_assoc, List.cons_append,
      Str.splitWhitespace_join_cons message.method_token.1 message.method_token.2,
      Str.splitWhitespace_join_cons message.target_token.1 message.target_token.2,
      Str.splitWhitespace_word message.version_token.1 message.version_token.2]
  simp only [isRequestLine, hsplit]
  exact message.version_http

theorem isHeaderNameChar_toLower {c : Char} (h : isHeaderNameChar c) :
    isHeaderNameChar c.toLower := by
  simp only [isHeaderNameChar, Bool.or_eq_true, beq_iff_eq] at h ⊢
  rcases h with h | rfl
  · exact .inl (Str.isAlphanum_toLower h)
  · exact .inr (by decide)

theorem toNat_of_isHeaderNameChar {c : Char} (h : isHeaderNameChar c) :
    32 < c.toNat ∧ c.toNat < 128 := by
  simp only [isHeaderNameChar, Bool.or_eq_true, beq_iff_eq] at h
  rcases h with h | rfl
  · obtain ⟨hlow, hhigh⟩ := Str.toNat_of_isAlphanum h
    omega
  · decide

namespace HeaderField

theorem trim_name (field : HeaderField) : Str.trim field.name = field.name := by
  refine Str.trim_eq_self fun c hc => ?_
  obtain ⟨hlow, hhigh⟩ := toNat_of_isHeaderNameChar (field.name_chars c hc)
  exact Str.isWhitespace_eq_false_of_visible hlow hhigh

theorem colon_not_mem_name (field : HeaderField) : ':' ∉ field.name := by
  intro hmem
  exact absurd (field.name_chars ':' hmem) (by decide)

theorem newline_not_mem_line (field : HeaderField) : '\n' ∉ field.line := by
  intro hmem
  rcases List.mem_append.mp hmem with hmem | hmem
  · exact absurd (field.name_chars '\n' hmem) (by decide)
  · rcases List.mem_cons.mp hmem with heq | hmem
    · exact absurd heq (by decide)
    · exact absurd (field.value_chars '\n' hmem) (by decide)

theorem key_ne_nil (field : HeaderField) : field.key ≠ [] := by
  simp [key, Str.toAsciiLowercase, field.name_ne_nil]

theorem all_key (field : HeaderField) : field.key.all isHeaderNameChar := by
  refine List.all_eq_true.mpr fun c hc => ?_
  obtain ⟨d, hd, rfl⟩ := List.mem_map.mp hc
  exact isHeaderNameChar_toLower (field.name_chars d hd)

end HeaderField

/-! ## Header block -/

/-- The map after one more field. -/
def addField (headers : BTreeMap Str Str) (field : HeaderField) : BTreeMap Str Str :=
  addHeader headers field.key (Str.trim field.value)

theorem headerLine_line {st : HeaderState} {field : HeaderField}
    (h : st.headerBytes + Str.len field.line ≤ maxHeaderBytes) :
    headerLine st field.line =
      .ok (.next ⟨addField st.headers field, st.headerBytes + Str.len field.line⟩) := by
  have hsat := Numeral.saturatingAdd_eq (by decide) h
  have hne : field.line ≠ [] := by simp [HeaderField.line]
  have hsplit : Str.splitOnce ':' field.line = some (field.name, field.value) :=
    Str.splitOnce_append field.colon_not_mem_name
  have hkey : Str.toAsciiLowercase (Str.trim field.name) = field.key := by
    rw [field.trim_name, HeaderField.key]
  have hvalue : (Str.trim field.value).any Str.isControl = false :=
    List.any_eq_false.mpr fun c hc => by simp [field.value_chars c (Str.mem_of_mem_trim hc)]
  simp only [headerLine, hsat, if_neg (Nat.not_lt.mpr h), if_neg hne, hsplit, hkey, hvalue,
    field.all_key, field.key_ne_nil]
  rfl

theorem headerLine_nil {st : HeaderState} (h : st.headerBytes ≤ maxHeaderBytes) :
    headerLine st [] = .ok (.done st.headers) := by
  have hsat : Numeral.saturatingAdd st.headerBytes (Str.len []) = st.headerBytes :=
    Numeral.saturatingAdd_eq (by decide) h
  rw [headerLine, hsat, if_neg (Nat.not_lt.mpr h), if_pos rfl]

/-- The header loop reads the fields in order and stops behind the empty line. -/
theorem run_forN_headerStep (fields : List HeaderField) (rest : List UInt8) (fault : Option Str)
    {n : Nat} {st : HeaderState} (hn : fields.length < n)
    (hbytes : st.headerBytes + (fields.map fun field => Str.len field.line).sum ≤ maxHeaderBytes) :
    (Reader.forN headerStep n st).run
        ⟨fields.flatMap (fun field => Utf8.encode (field.line ++ crlf)) ++ Utf8.encode crlf ++ rest,
          fault⟩ =
      (.ok (.done (fields.foldl addField st.headers)), ⟨rest, fault⟩) := by
  induction fields generalizing n st with
  | nil =>
    obtain ⟨n, rfl⟩ := Nat.exists_eq_succ_of_ne_zero (Nat.ne_of_gt hn)
    have hnil : '\n' ∉ ([] : Str) := List.not_mem_nil
    have hread := run_readHttpLine_crlf hnil rest fault
    simp only [List.map_nil, List.sum_nil, Nat.add_zero] at hbytes
    simp only [List.flatMap_nil, List.nil_append, Reader.forN, Reader.run_bind, headerStep, crlf]
    rw [show Utf8.encode ['\r', '\n'] = Utf8.encode ([] ++ ['\r', '\n']) from rfl, hread]
    simp [headerLine_nil hbytes, Reader.ofExcept]
  | cons field fields ih =>
    obtain ⟨n, rfl⟩ := Nat.exists_eq_succ_of_ne_zero (Nat.ne_of_gt (Nat.zero_lt_of_lt hn))
    simp only [List.map_cons, List.sum_cons, ← Nat.add_assoc] at hbytes
    -- the limit leaves room for this line
    have hline : st.headerBytes + Str.len field.line ≤ maxHeaderBytes :=
      le_trans (Nat.le_add_right _ _) hbytes
    simp only [List.flatMap_cons, List.append_assoc, Reader.forN, Reader.run_bind, headerStep]
    rw [crlf, run_readHttpLine_crlf field.newline_not_mem_line]
    simp only [Reader.andThen_ok, headerLine_line hline, Reader.ofExcept, Reader.run_pure,
      List.foldl_cons]
    have hrest := @ih n ⟨addField st.headers field, _⟩
      (Nat.lt_of_succ_lt_succ hn) hbytes
    simpa only [crlf, List.append_assoc] using hrest

theorem run_readHeaders (message : Message) (rest : List UInt8) (fault : Option Str) :
    (readHeaders (Str.len message.requestLine)).run
        ⟨message.fields.flatMap (fun field => Utf8.encode (field.line ++ crlf)) ++
          Utf8.encode crlf ++ rest, fault⟩ =
      (.ok (message.fields.foldl addField BTreeMap.empty), ⟨rest, fault⟩) := by
  have hloop := @run_forN_headerStep message.fields rest fault maxHeaderLines
    ⟨BTreeMap.empty, Str.len message.requestLine⟩
    (Nat.lt_of_le_of_lt message.fields_le (by decide)) message.bytes_le
  rw [readHeaders, Reader.run_bind, hloop]
  rfl

/-! ## Folded values -/

/-- The values of the fields under `key`, in order and trimmed. -/
def valuesOf (key : Str) (fields : List HeaderField) : List Str :=
  (fields.filter (·.key = key)).map fun field => Str.trim field.value

/-- The one value that stands for all fields under `key`. -/
def foldedValue (key : Str) (fields : List HeaderField) : Option Str :=
  match valuesOf key fields with
  | [] => none
  | values => some (List.intercalate [','] values)

theorem get_addField (headers : BTreeMap Str Str) (field : HeaderField) (key : Str) :
    (addField headers field).get key =
      if field.key = key then
        some ((headers.get key).elim (Str.trim field.value) (· ++ ',' :: Str.trim field.value))
      else headers.get key := by
  rw [addField, addHeader, BTreeMap.get_upsert]
  by_cases hkey : field.key = key
  · subst hkey
    simp
  · rw [if_neg (Ne.symm hkey), if_neg hkey]

theorem get_foldl_addField (headers : BTreeMap Str Str) (fields : List HeaderField) (key : Str) :
    (fields.foldl addField headers).get key =
      (valuesOf key fields).foldl (fun folded value => some (folded.elim value (· ++ ',' :: value)))
        (headers.get key) := by
  induction fields generalizing headers with
  | nil => rfl
  | cons field fields ih =>
    rw [List.foldl_cons, ih, get_addField]
    by_cases hkey : field.key = key <;> simp [valuesOf, hkey]

theorem foldl_folded (value : Str) (values : List Str) :
    values.foldl (fun (folded : Option Str) value => some (folded.elim value (· ++ ',' :: value)))
      (some value) = some (List.intercalate [','] (value :: values)) := by
  induction values generalizing value with
  | nil => simp [List.intercalate]
  | cons next values ih =>
    rw [List.foldl_cons, Option.elim_some, ih]
    cases values <;> simp [List.intercalate]

theorem get_fields (fields : List HeaderField) (key : Str) :
    (fields.foldl addField BTreeMap.empty).get key = foldedValue key fields := by
  rw [get_foldl_addField, BTreeMap.get_empty, foldedValue]
  cases valuesOf key fields with
  | nil => rfl
  | cons value values => exact foldl_folded value values

theorem foldedValue_eq_none {key : Str} {fields : List HeaderField}
    (h : ∀ field ∈ fields, field.key ≠ key) : foldedValue key fields = none := by
  have hnil : valuesOf key fields = [] := by
    rw [valuesOf, List.map_eq_nil_iff, List.filter_eq_nil_iff]
    intro field hfield
    simpa using h field hfield
  rw [foldedValue, hnil]

/-! ## Chunks -/

theorem Framing.newline_not_mem_size {size extension : Str} {n : Nat}
    (hsize : Numeral.Writes 16 size n) (hext : IsChunkExtension extension) :
    '\n' ∉ size ++ extension := by
  simp [hsize.not_mem (c := '\n') (by decide), hext.2.2]

theorem chunkSize_append {size extension : Str} {n : Nat} (hsize : Numeral.Writes 16 size n)
    (hext : IsChunkExtension extension) (hn : n ≤ Numeral.usizeMax) :
    chunkSize (size ++ extension) = some n := by
  have hsemi : ';' ∉ size := hsize.not_mem (by decide)
  have hbefore : Str.beforeFirst ';' (size ++ extension) = size := by
    rcases hext.1 with rfl | hhead
    · rw [List.append_nil]
      exact Str.beforeFirst_eq_self hsemi
    · obtain ⟨tail, rfl⟩ := List.head?_eq_some_iff.mp hhead
      exact Str.beforeFirst_append hsemi
  rw [chunkSize, hbefore, Str.trim_eq_self hsize.isWhitespace_eq_false,
    hsize.fromStrRadix_eq (by decide) hn]

/-- The trailer loop stops behind the empty line. -/
theorem run_loop_trailerStep (trailers : List Str)
    (h : ∀ trailer ∈ trailers, trailer ≠ [] ∧ '\r' ∉ trailer ∧ '\n' ∉ trailer)
    (rest : List UInt8) (fault : Option Str) :
    (Reader.loop trailerStep ()).run
        ⟨trailers.flatMap (fun trailer => Utf8.encode (trailer ++ crlf)) ++ Utf8.encode crlf ++ rest,
          fault⟩ = (.ok (), ⟨rest, fault⟩) := by
  induction trailers with
  | nil =>
    have hnil : '\n' ∉ ([] : Str) := List.not_mem_nil
    have hread := run_readHttpLine_crlf hnil rest fault
    refine Reader.run_loop_done ?_
    rw [trailerStep, Reader.run_bind]
    simp only [List.flatMap_nil, List.nil_append, crlf] at hread ⊢
    rw [hread]
    simp
  | cons trailer trailers ih =>
    obtain ⟨hne, -, hnl⟩ := h trailer List.mem_cons_self
    rw [Reader.loop_eq_bind advances_trailerStep, Reader.run_bind, trailerStep, Reader.run_bind]
    simp only [List.flatMap_cons, List.append_assoc]
    rw [crlf, run_readHttpLine_crlf hnl]
    simp only [Reader.andThen_ok, hne, ↓reduceIte, Reader.run_pure]
    have hrest := ih fun t ht => h t (List.mem_cons_of_mem _ ht)
    simpa only [crlf, List.append_assoc] using hrest

theorem run_chunkStep_last (maxBodyBytes : Nat) (body : List UInt8) (last : LastChunk)
    (rest : List UInt8) (fault : Option Str) :
    (chunkStep maxBodyBytes body).run ⟨last.bytes ++ rest, fault⟩ =
      (.ok (.done body), ⟨rest, fault⟩) := by
  have hnl := Framing.newline_not_mem_size last.size_writes last.extension_ok
  have htrailers := run_loop_trailerStep last.trailers last.trailers_ok rest fault
  rw [List.append_assoc] at htrailers
  rw [chunkStep, Reader.run_bind, LastChunk.bytes, List.append_assoc, List.append_assoc, crlf,
    run_readHttpLine_crlf hnl, Reader.andThen_ok]
  simp only [chunkSize_append last.size_writes last.extension_ok (Nat.zero_le _), ↓reduceIte]
  rw [Reader.run_bind, ← crlf, htrailers]
  rfl

theorem run_chunkStep_chunk {maxBodyBytes : Nat} (hmax : maxBodyBytes ≤ Numeral.usizeMax)
    {body : List UInt8} (chunk : Chunk) (hbody : (body ++ chunk.data).length ≤ maxBodyBytes)
    (rest : List UInt8) (fault : Option Str) :
    (chunkStep maxBodyBytes body).run ⟨chunk.bytes ++ rest, fault⟩ =
      (.ok (.next (body ++ chunk.data)), ⟨rest, fault⟩) := by
  have hnl := Framing.newline_not_mem_size chunk.size_writes chunk.extension_ok
  have hpos : chunk.data.length ≠ 0 := fun h => chunk.data_ne_nil (List.length_eq_zero_iff.mp h)
  rw [List.length_append] at hbody
  have hsize := chunkSize_append chunk.size_writes chunk.extension_ok (by omega)
  have hsat : ¬ Numeral.saturatingAdd body.length chunk.data.length > maxBodyBytes := by
    simp only [Numeral.saturatingAdd]
    omega
  have hfits : ¬ Numeral.usizeMax < body.length + chunk.data.length := by omega
  have hterm : (Reader.readExact 2).run ⟨[13, 10] ++ rest, fault⟩ = (.ok [13, 10], ⟨rest, fault⟩) :=
    Reader.run_readExact_append [13, 10] rest fault
  rw [chunkStep, Reader.run_bind, Chunk.bytes, List.append_assoc, List.append_assoc, crlf,
    run_readHttpLine_crlf hnl, Reader.andThen_ok]
  simp only [hsize, hpos, hsat, ↓reduceIte]
  rw [readChunk, if_neg hfits, Reader.run_bind,
    Reader.run_mapErr_ok (Reader.run_readExact_append chunk.data _ fault), Reader.andThen_ok,
    Reader.run_bind, Reader.run_mapErr_ok hterm]
  rfl

/-- The chunk loop reads the chunks in order and stops behind the trailers. -/
theorem run_readChunks {maxBodyBytes : Nat} (hmax : maxBodyBytes ≤ Numeral.usizeMax)
    (chunks : List Chunk) (last : LastChunk) (body : List UInt8)
    (hbody : (body ++ chunks.flatMap Chunk.data).length ≤ maxBodyBytes)
    (rest : List UInt8) (fault : Option Str) :
    (Reader.loop (chunkStep maxBodyBytes) body).run
        ⟨chunks.flatMap Chunk.bytes ++ last.bytes ++ rest, fault⟩ =
      (.ok (body ++ chunks.flatMap Chunk.data), ⟨rest, fault⟩) := by
  induction chunks generalizing body with
  | nil =>
    rw [List.flatMap_nil, List.flatMap_nil, List.nil_append, List.append_nil]
    exact Reader.run_loop_done (run_chunkStep_last maxBodyBytes body last rest fault)
  | cons chunk chunks ih =>
    rw [List.flatMap_cons, ← List.append_assoc] at hbody
    have hchunk : (body ++ chunk.data).length ≤ maxBodyBytes := by
      rw [List.length_append] at hbody
      omega
    rw [Reader.loop_eq_bind (advances_chunkStep maxBodyBytes), Reader.run_bind,
      List.flatMap_cons, List.append_assoc, List.append_assoc,
      run_chunkStep_chunk hmax chunk hchunk, Reader.andThen_ok, List.flatMap_cons,
      ← List.append_assoc body, ← List.append_assoc _ last.bytes]
    exact ih _ hbody

/-! ## The round trip -/

theorem contains_intercalate {pattern : Str} {values : List Str} {value : Str}
    (hmem : value ∈ values) (h : pattern <:+: value) :
    pattern <:+: List.intercalate [','] values := by
  induction values with
  | nil => cases hmem
  | cons first values ih =>
    rcases List.mem_cons.mp hmem with rfl | hmem
    · cases values with
      | nil => simpa [List.intercalate] using h
      | cons next values =>
        simp only [List.intercalate, List.intersperse_cons_cons, List.flatten_cons]
        exact h.trans (List.prefix_append _ _).isInfix
    · cases values with
      | nil => cases hmem
      | cons next values =>
        refine (ih hmem).trans ?_
        simp only [List.intercalate, List.intersperse_cons_cons, List.flatten_cons]
        rw [← List.append_assoc]
        exact (List.suffix_append _ _).isInfix

theorem toAsciiLowercase_isInfix {s t : Str} (h : s <:+: t) :
    Str.toAsciiLowercase s <:+: Str.toAsciiLowercase t :=
  h.map Char.toLower

theorem isChunked_of_declared {fields : List HeaderField} {chunks : List Chunk} {last : LastChunk}
    (h : (Framing.chunked chunks last).DeclaredBy fields) :
    isChunked (fields.foldl addField BTreeMap.empty) := by
  obtain ⟨field, hfield, hkey, hvalue⟩ := h
  have hmem : Str.trim field.value ∈ valuesOf "transfer-encoding" fields :=
    List.mem_map.mpr ⟨field, List.mem_filter.mpr ⟨hfield, decide_eq_true hkey⟩, rfl⟩
  have hfold : foldedValue "transfer-encoding" fields =
      some (List.intercalate [','] (valuesOf "transfer-encoding" fields)) := by
    rw [foldedValue]
    split
    · rename_i hnil
      rw [hnil] at hmem
      cases hmem
    · rfl
  rw [isChunked, get_fields, hfold]
  have hinfix := toAsciiLowercase_isInfix (contains_intercalate hmem (List.infix_refl _))
  rw [hvalue] at hinfix
  exact decide_eq_true hinfix

theorem isChunked_eq_false {fields : List HeaderField}
    (h : ∀ field ∈ fields, field.key ≠ "transfer-encoding") :
    isChunked (fields.foldl addField BTreeMap.empty) = false := by
  rw [isChunked, get_fields, foldedValue_eq_none h]

theorem run_readBody {maxBodyBytes : Nat} (hmax : maxBodyBytes ≤ Numeral.usizeMax)
    {fields : List HeaderField} {framing : Framing} (hdecl : framing.DeclaredBy fields)
    (hbody : framing.body.length ≤ maxBodyBytes) (rest : List UInt8) (fault : Option Str) :
    (readBody maxBodyBytes (fields.foldl addField BTreeMap.empty)).run
        ⟨framing.bytes ++ rest, fault⟩ = (.ok framing.body, ⟨rest, fault⟩) := by
  cases framing with
  | empty =>
    have hchunked := isChunked_eq_false fun field hfield => (hdecl field hfield).2
    have hlength : (fields.foldl addField BTreeMap.empty).get "content-length" = none := by
      rw [get_fields, foldedValue_eq_none fun field hfield => (hdecl field hfield).1]
    rw [readBody, hchunked, hlength]
    rfl
  | contentLength body =>
    obtain ⟨⟨field, hfilter, hwrites⟩, hte⟩ := hdecl
    have hlength : (fields.foldl addField BTreeMap.empty).get "content-length" =
        some (Str.trim field.value) := by
      rw [get_fields, foldedValue, valuesOf, hfilter]
      simp [List.intercalate]
    have hbody : body.length ≤ maxBodyBytes := hbody
    -- a length within the limit does not overflow
    have hparse := hwrites.fromStrRadix_eq (by decide) (hbody.trans hmax)
    simp only [readBody, isChunked_eq_false hte, hlength, Str.trim_trim, hparse,
      Nat.not_lt.mpr hbody, Bool.false_eq_true, ↓reduceIte]
    exact Reader.run_mapErr_ok (Reader.run_readExact_append body rest fault)
  | chunked chunks last =>
    rw [readBody, if_pos (isChunked_of_declared hdecl), readChunkedBody]
    exact run_readChunks hmax chunks last [] hbody rest fault

theorem run_readRequest_bytes (message : Message) {maxBodyBytes : Nat}
    (hmax : maxBodyBytes ≤ Numeral.usizeMax) (hbody : message.framing.body.length ≤ maxBodyBytes)
    (rest : List UInt8) (fault : Option Str) :
    (readRequest maxBodyBytes).run ⟨message.bytes ++ rest, fault⟩ =
      (.ok (some ⟨message.fields.foldl addField BTreeMap.empty, message.framing.body⟩),
        ⟨rest, fault⟩) := by
  have hline : ¬ Str.len message.requestLine > maxHeaderBytes :=
    Nat.not_lt.mpr (le_trans (Nat.le_add_right _ _) message.bytes_le)
  have hheaders := run_readHeaders message (message.framing.bytes ++ rest) fault
  rw [← List.append_assoc] at hheaders
  rw [readRequest, Reader.run_bind, Message.bytes, List.append_assoc, List.append_assoc,
    List.append_assoc, crlf, run_readHttpLine_crlf message.not_mem_requestLine, Reader.andThen_ok]
  dsimp only
  rw [Reader.run_bind, readRequestAfter, message.isRequestLine_requestLine]
  simp only [Bool.not_true, Bool.false_eq_true, hline, ↓reduceIte]
  rw [Reader.run_bind, ← crlf]
  simp only [List.append_assoc] at hheaders ⊢
  rw [hheaders, Reader.andThen_ok, Reader.run_bind,
    run_readBody hmax message.declared hbody rest fault]
  rfl

/-- Reading a message yields its body and its fields, lower-cased, trimmed and
    with repeated names folded, and leaves exactly what follows the message. -/
theorem readRequest_decodes (message : Message) {maxBodyBytes : Nat}
    (hmax : maxBodyBytes ≤ Numeral.usizeMax) (hbody : message.framing.body.length ≤ maxBodyBytes)
    (rest : List UInt8) (fault : Option Str) :
    ∃ headers : BTreeMap Str Str,
      (readRequest maxBodyBytes).run ⟨message.bytes ++ rest, fault⟩ =
        (.ok (some ⟨headers, message.framing.body⟩), ⟨rest, fault⟩) ∧
      ∀ key, headers.get key = foldedValue key message.fields :=
  ⟨_, run_readRequest_bytes message hmax hbody rest fault, get_fields message.fields⟩

theorem isToken_post : IsToken "POST" :=
  ⟨by decide, Str.forall_mem (by decide)⟩

/-- A request in two chunks, with mixed case, an extension and a trailer. -/
def sampleMessage : Message where
  method := "POST"
  target := "/call"
  version := "HTTP/1.1"
  fields := [
    ⟨"Transfer-Encoding", " Chunked", by decide, Str.forall_mem (by decide), Str.forall_mem (by decide)⟩,
    ⟨"X-Id", " a ", by decide, Str.forall_mem (by decide), Str.forall_mem (by decide)⟩,
    ⟨"x-id", "b", by decide, Str.forall_mem (by decide), Str.forall_mem (by decide)⟩]
  framing := .chunked
    [⟨"4", ";n=1", [123, 34, 97, 34], by decide, ⟨by decide, Str.forall_mem (by decide), by decide⟩,
        ⟨by decide, by decide, by decide⟩⟩,
      ⟨"03", [], [58, 49, 125], by decide, ⟨by decide, Str.forall_mem (by decide), by decide⟩,
        ⟨by decide, by decide, by decide⟩⟩]
    ⟨"0", [], ["Trailer: t"], ⟨by decide, Str.forall_mem (by decide), by decide⟩,
      ⟨by decide, by decide, by decide⟩, by decide⟩
  method_token := isToken_post
  target_token := ⟨by decide, Str.forall_mem (by decide)⟩
  version_token := ⟨by decide, Str.forall_mem (by decide)⟩
  version_http := by decide
  fields_le := by decide
  bytes_le := by decide
  declared := ⟨_, List.mem_cons_self, by decide, by decide⟩

theorem readRequest_decodes_sample :
    ∃ headers : BTreeMap Str Str,
      (readRequest 7).run ⟨sampleMessage.bytes ++ [65], none⟩ =
        (.ok (some ⟨headers, sampleMessage.framing.body⟩), ⟨[65], none⟩) ∧
      ∀ key, headers.get key = foldedValue key sampleMessage.fields :=
  readRequest_decodes sampleMessage (by decide) (by decide) [65] none

end OracleFn
