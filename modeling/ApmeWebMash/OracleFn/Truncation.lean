-- SUMMARY: A truncated request is never taken for a complete one.
import ApmeWebMash.OracleFn.HttpStream

/-! # Truncation

`read_http_line` also returns an unterminated last line, so a cut inside a line
yields a different, plausible line. The strictness rules reduce the question to
what each caller does with such a line when nothing follows it. -/

namespace OracleFn

open Reader (Step Refuses Strict StrictStep Uses UsesStep Advances)

/-! ## Cut lines -/

/-- What a complete line is: it is read whatever follows, and a cut inside it
    leaves an error, no line, or a beginning of the line and an empty source. A
    cut between CR and LF leaves the line with its CR. -/
structure UsesLine (used : List UInt8) (line : Str) : Prop where
  run_append : ∀ rest fault,
    readHttpLine.run ⟨used ++ rest, fault⟩ = (.ok (some line), ⟨rest, fault⟩)
  cut : ∀ xs ys, xs ++ ys = used → ys ≠ [] → ∀ fault,
    Refuses readHttpLine ⟨xs, fault⟩ ∨ (xs = [] ∧ fault = none) ∨
      ∃ part, part ≠ [] ∧ part <+: line ++ ['\r'] ∧ fault = none ∧
        readHttpLine.run ⟨xs, fault⟩ = (.ok (some part), ⟨[], none⟩)

/-- A line that was read is complete, or it is all of a source without a line
    feed. -/
theorem readHttpLine_complete {s s' : Source} {line : Str}
    (h : readHttpLine.run s = (.ok (some line), s')) :
    (∃ used, s.bytes = used ++ s'.bytes ∧ s'.fault = s.fault ∧ UsesLine used line) ∨
      (line ≠ [] ∧ s' = ⟨[], none⟩) := by
  obtain ⟨text, t, hread, hcont⟩ := Reader.run_bind_ok h
  obtain ⟨hbytes, hfault, hline⟩ := Reader.run_readLine_ok (Reader.run_mapErr_eq_ok hread)
  split at hcont
  · cases hcont
  · rename_i hne
    obtain ⟨htext, rfl⟩ := Prod.mk.inj hcont
    obtain rfl := Option.some.inj (Outcome.ok.inj htext)
    rcases hline with ⟨body, hbody, rfl⟩ | ⟨hbody, rfl⟩
    · refine .inl ⟨Utf8.encode (body ++ ['\n']), hbytes, hfault, ?_, ?_⟩
      · intro rest fault
        have hrun := Reader.run_mapErr_ok (g := ReadRequestError.io)
          (Reader.run_readLine_terminated hbody rest fault)
        rw [readHttpLine, Reader.run_bind, hrun, Reader.andThen_ok, if_neg hne]
        rfl
      · intro xs ys hxy hys fault
        rcases Reader.run_readLine_cut hbody hys hxy fault with
          ⟨e, u, hrefuse⟩ | ⟨part, hpart, henc, rfl, hrun⟩
        · exact .inl (Refuses.mapErr ⟨e, u, hrefuse⟩).bind
        -- `read_line` takes a part of a line for a whole one
        · by_cases hnil : part = []
          · exact .inr (.inl ⟨by rw [← henc, hnil, Utf8.encode_nil], rfl⟩)
          · have hnl : '\n' ∉ part := fun hmem => hbody (hpart.subset hmem)
            refine .inr (.inr ⟨part, hnil, ?_, rfl, ?_⟩)
            · rcases stripLineEnd_terminated body with hstrip | hstrip
              · exact hstrip.symm ▸ hpart.trans (List.prefix_append body ['\r'])
              · exact hstrip.symm ▸ hpart
            · rw [readHttpLine, Reader.run_bind, Reader.run_mapErr_ok hrun, Reader.andThen_ok,
                if_neg hnil, stripLineEnd_unterminated hnl]
              rfl
    · exact .inr ⟨(stripLineEnd_unterminated hbody).symm ▸ hne, rfl⟩

/-- A line and what is read behind it, cut: the whole is refused, unless the cut
    leaves no line, or a beginning of the line and nothing behind it. -/
theorem UsesLine.cut_bind {α : Type} {f : Option Str → Reader ReadRequestError α} {line : Str}
    {used₁ used₂ : List UInt8} {a : α} (huses₁ : UsesLine used₁ line)
    (huses₂ : Uses (f (some line)) used₂ a) {xs ys : List UInt8}
    (hxy : xs ++ ys = used₁ ++ used₂) (hys : ys ≠ []) (fault : Option Str) :
    Refuses (readHttpLine >>= f) ⟨xs, fault⟩ ∨ (xs = [] ∧ fault = none) ∨
      ∃ part, part ≠ [] ∧ part <+: line ++ ['\r'] ∧ fault = none ∧
        readHttpLine.run ⟨xs, fault⟩ = (.ok (some part), ⟨[], none⟩) := by
  rcases Uses.refuses_or_within huses₁.run_append huses₂ hxy hys fault with
    hrefuse | ⟨mid, hused, hmid⟩
  · exact .inl hrefuse
  · exact (huses₁.cut xs mid hused hmid fault).imp_left Refuses.bind

/-- An iteration that reads a line is strict when it refuses the absence of a
    line, is strict behind every line, and refuses every cut line, or goes on,
    once nothing follows. -/
theorem strictStep_readHttpLine_bind {σ α : Type}
    {f : Option Str → Reader ReadRequestError (Step σ α)}
    (hnone : Refuses (f none) ⟨[], none⟩) (hstrict : ∀ line, Strict (f (some line)))
    (hcut : ∀ line part s r s', part ≠ [] → part <+: line ++ ['\r'] →
      (f (some line)).run s = (.ok r, s') →
      Refuses (f (some part)) ⟨[], none⟩ ∨
        ∃ st, (f (some part)).run ⟨[], none⟩ = (.ok (.next st), ⟨[], none⟩)) :
    StrictStep (readHttpLine >>= f) := by
  intro s r s' h
  obtain ⟨line, t, hread, hcont⟩ := Reader.run_bind_ok h
  match line with
  | none =>
    obtain ⟨-, rfl⟩ := run_readHttpLine_none hread
    obtain ⟨e, u, hrefuse⟩ := hnone
    rw [hrefuse] at hcont
    cases hcont
  | some line =>
    rcases readHttpLine_complete hread with ⟨used₁, hbytes₁, hfault₁, huses₁⟩ | ⟨hne, rfl⟩
    · obtain ⟨used₂, hbytes₂, hfault₂, huses₂⟩ := hstrict line t r s' hcont
      refine .inl ⟨used₁ ++ used₂, by rw [hbytes₁, hbytes₂, List.append_assoc],
        hfault₂.trans hfault₁, Uses.run_bind_append huses₁.run_append huses₂, ?_⟩
      intro xs ys hxy hys fault
      -- a cut in the line leaves a part of it, which the step must refuse or merely collect
      rcases huses₁.cut_bind huses₂ hxy hys fault with
        hrefuse | ⟨rfl, rfl⟩ | ⟨part, hpart, hpref, rfl, hrun⟩
      · exact .inl hrefuse
      · exact .inl (refuses_readHttpLine_bind hnone none)
      · rcases hcut line part t r s' hpart hpref hcont with hrefuse | ⟨st, hnext⟩
        · exact .inl (Refuses.bind_of_ok hrun hrefuse)
        · refine .inr ⟨st, ?_⟩
          rw [Reader.run_bind, hrun, Reader.andThen_ok, hnext]
    · rcases hcut line line _ r s' hne (List.prefix_append line ['\r']) hcont with
        ⟨e, u, hrefuse⟩ | ⟨st, hnext⟩
      · rw [hrefuse] at hcont
        cases hcont
      · rw [hnext] at hcont
        obtain ⟨hr, rfl⟩ := Prod.mk.inj hcont
        exact .inr ⟨rfl, st, (Outcome.ok.inj hr).symm⟩

/-! ## Header block -/

theorem headerLine_done {st : HeaderState} {line : Str} {headers : BTreeMap Str Str}
    (h : headerLine st line = .ok (.done headers)) : line = [] := by
  by_contra hne
  simp only [headerLine, hne, ↓reduceIte] at h
  split at h
  · cases h
  · split at h
    · cases h
    · split at h
      · cases h
      · split at h <;> cases h

theorem refuses_headerStep (st : HeaderState) (fault : Option Str) :
    Refuses (headerStep st) ⟨[], fault⟩ :=
  refuses_readHttpLine_bind (Reader.refuses_throw _ _) fault

theorem strictStep_headerStep (st : HeaderState) : StrictStep (headerStep st) := by
  refine strictStep_readHttpLine_bind (Reader.refuses_throw _ _)
    (fun line => Strict.ofExcept (headerLine st line)) ?_
  intro line part s r s' hpart _ _
  match hres : headerLine st part with
  | .error e => exact .inl ⟨e, _, by simp only [hres]; rfl⟩
  | .ok (.next st') => exact .inr ⟨st', by simp only [hres]; rfl⟩
  | .ok (.done headers) => exact absurd (headerLine_done hres) hpart

theorem strict_readHeaders (headerBytes : Nat) : Strict (readHeaders headerBytes) := by
  refine StrictStep.forN_bind strictStep_headerStep refuses_headerStep (fun r => ?_)
    (fun _ _ => Reader.refuses_throw _ _) maxHeaderLines _
  cases r with
  | next _ => exact Strict.throw _
  | done headers => exact Strict.pure headers

theorem refuses_readHeaders (headerBytes : Nat) (fault : Option Str) :
    Refuses (readHeaders headerBytes) ⟨[], fault⟩ :=
  StrictStep.refuses_forN_bind refuses_headerStep (fun _ _ => Reader.refuses_throw _ _) _ _ fault

/-! ## Body -/

theorem refuses_trailerStep (st : Unit) (fault : Option Str) :
    Refuses (trailerStep st) ⟨[], fault⟩ :=
  refuses_readHttpLine_bind (Reader.refuses_throw _ _) fault

theorem strictStep_trailerStep (st : Unit) : StrictStep (trailerStep st) := by
  refine strictStep_readHttpLine_bind (Reader.refuses_throw _ _) (fun trailer => ?_) ?_
  · by_cases hnil : trailer = []
    · simp only [hnil, ↓reduceIte]
      exact Strict.pure _
    · simp only [hnil, ↓reduceIte]
      exact Strict.pure _
  · intro line part s r s' hpart _ _
    exact .inr ⟨(), by simp only [hpart, ↓reduceIte]; rfl⟩

theorem strict_trailers : Strict (Reader.loop trailerStep ()) :=
  StrictStep.loop advances_trailerStep strictStep_trailerStep refuses_trailerStep ()

theorem refuses_trailers (fault : Option Str) :
    Refuses (Reader.loop trailerStep ()) ⟨[], fault⟩ := by
  rw [Reader.loop_eq_bind advances_trailerStep]
  exact (refuses_trailerStep () fault).bind

/-- A chunk-size line that is cut short never declares a larger chunk. -/
theorem chunkSize_le_of_isPrefix {line part : Str} {m n : Nat} (hpart : part <+: line ++ ['\r'])
    (hline : chunkSize line = some n) (hcut : chunkSize part = some m) : m ≤ n := by
  have hcr : ∀ c ∈ ['\r'], Str.isWhitespace c := Str.forall_mem (by decide)
  have htrim : Str.trim (Str.beforeFirst ';' (line ++ ['\r'])) =
      Str.trim (Str.beforeFirst ';' line) := by
    by_cases hmem : ';' ∈ line
    · obtain ⟨a, b, rfl, ha⟩ := List.eq_append_cons_of_mem hmem
      rw [List.append_assoc, List.cons_append, Str.beforeFirst_append ha, Str.beforeFirst_append ha]
    · rw [Str.beforeFirst_eq_self hmem, Str.beforeFirst_eq_self (by simp [hmem]),
        Str.trim_append_right hcr]
  have hdigits : ∀ c ∈ Str.trim (Str.beforeFirst ';' (line ++ ['\r'])),
      Str.isWhitespace c = false := by
    rw [htrim]
    intro c hc
    rcases Numeral.mem_of_fromStrRadix hline c hc with rfl | hdigit
    · decide
    · exact Str.isWhitespace_eq_false_of_isAlphanum (Numeral.isAlphanum_of_toDigit hdigit)
  obtain ⟨rest, hrest⟩ := Str.trim_isPrefix (Str.beforeFirst_isPrefix hpart) hdigits
  rw [htrim] at hrest
  rw [chunkSize, ← hrest] at hline
  exact Numeral.fromStrRadix_le_of_append (by decide) hline hcut

theorem strict_readChunk (body : List UInt8) (size : Nat) : Strict (readChunk body size) := by
  rw [readChunk]
  split
  · exact Strict.panicked
  · refine (Strict.readExact size).mapErr.bind fun chunk => ?_
    refine (Strict.readExact 2).mapErr.bind fun terminator => ?_
    split
    · exact Strict.throw _
    · exact Strict.pure _

theorem refuses_readChunk {body : List UInt8} {size : Nat} (hpos : size ≠ 0)
    (hfits : body.length + size ≤ Numeral.usizeMax) (fault : Option Str) :
    Refuses (readChunk body size) ⟨[], fault⟩ := by
  rw [readChunk, if_neg (Nat.not_lt.mpr hfits)]
  have hshort := Reader.run_readExact_short (s := ⟨[], fault⟩) (Nat.pos_of_ne_zero hpos)
  exact (Refuses.mapErr ⟨_, _, hshort⟩).bind

theorem refuses_chunkStep (maxBodyBytes : Nat) (body : List UInt8) (fault : Option Str) :
    Refuses (chunkStep maxBodyBytes body) ⟨[], fault⟩ :=
  refuses_readHttpLine_bind (Reader.refuses_throw _ _) fault

theorem strictStep_chunkStep (maxBodyBytes : Nat) (body : List UInt8) :
    StrictStep (chunkStep maxBodyBytes body) := by
  refine strictStep_readHttpLine_bind (Reader.refuses_throw _ _) (fun sizeLine => ?_) ?_
  · dsimp only
    split
    · exact Strict.throw _
    · split
      · exact strict_trailers.bind fun _ => Strict.pure _
      · split
        · exact Strict.throw _
        · exact strict_readChunk body _
  · intro line part s r s' _ hpref hrun
    left
    dsimp only at hrun ⊢
    split at hrun
    · cases hrun
    · rename_i n hn
      split
      · exact Reader.refuses_throw _ _
      · rename_i m hm
        -- the cut line declares at most the size of the whole one, which was accepted
        have hle := chunkSize_le_of_isPrefix hpref hn hm
        split
        · exact (refuses_trailers none).bind
        · rename_i hm0
          split
          · exact Reader.refuses_throw _ _
          · rw [if_neg (by omega)] at hrun
            split at hrun
            · cases hrun
            · exact refuses_readChunk hm0 (by have := (readChunk_ok hrun).1; omega) none

theorem strict_readChunkedBody (maxBodyBytes : Nat) : Strict (readChunkedBody maxBodyBytes) :=
  StrictStep.loop (advances_chunkStep maxBodyBytes) (strictStep_chunkStep maxBodyBytes)
    (refuses_chunkStep maxBodyBytes) []

theorem strict_readBody (maxBodyBytes : Nat) (headers : BTreeMap Str Str) :
    Strict (readBody maxBodyBytes headers) := by
  rw [readBody]
  split
  · exact strict_readChunkedBody maxBodyBytes
  · split
    · exact Strict.pure _
    · split
      · exact Strict.throw _
      · split
        · exact Strict.throw _
        · exact (Strict.readExact _).mapErr

/-! ## Request -/

theorem strict_readRequestAfter (maxBodyBytes : Nat) (requestLine : Str) :
    Strict (readRequestAfter maxBodyBytes requestLine) := by
  rw [readRequestAfter]
  split
  · exact Strict.throw _
  · split
    · exact Strict.throw _
    · exact (strict_readHeaders _).bind fun headers =>
        (strict_readBody maxBodyBytes headers).bind fun body => Strict.pure _

theorem refuses_readRequestAfter (maxBodyBytes : Nat) (requestLine : Str) (fault : Option Str) :
    Refuses (readRequestAfter maxBodyBytes requestLine) ⟨[], fault⟩ := by
  rw [readRequestAfter]
  split
  · exact Reader.refuses_throw _ _
  · split
    · exact Reader.refuses_throw _ _
    · exact (refuses_readHeaders _ fault).bind

/-- The bytes an accepted request used, with what strictness says about them. -/
theorem exists_used_of_readRequest {maxBodyBytes : Nat} {s s' : Source} {r : ParsedRequest}
    (h : (readRequest maxBodyBytes).run s = (.ok (some r), s')) :
    ∃ used, s.bytes = used ++ s'.bytes ∧
      (∀ rest fault, (readRequest maxBodyBytes).run ⟨used ++ rest, fault⟩ =
        (.ok (some r), ⟨rest, fault⟩)) ∧
      (∀ xs ys, xs ++ ys = used → ys ≠ [] → xs ≠ [] → ∀ fault,
        Refuses (readRequest maxBodyBytes) ⟨xs, fault⟩) := by
  obtain ⟨line, t, hread, hcont⟩ := Reader.run_bind_ok h
  match line with
  | none => cases hcont
  | some requestLine =>
    -- behind the request line everything is strict and refuses an empty source
    have hstrict : Strict (readRequestAfter maxBodyBytes requestLine >>= fun r => pure (some r)) :=
      (strict_readRequestAfter maxBodyBytes requestLine).bind fun _ => Strict.pure _
    obtain ⟨used₂, hbytes₂, -, huses₂⟩ := hstrict t (some r) s' hcont
    rcases readHttpLine_complete hread with ⟨used₁, hbytes₁, -, huses₁⟩ | ⟨-, rfl⟩
    · refine ⟨used₁ ++ used₂, by rw [hbytes₁, hbytes₂, List.append_assoc],
        Uses.run_bind_append huses₁.run_append huses₂, ?_⟩
      intro xs ys hxy hys hxs fault
      have hends : Refuses (readRequest maxBodyBytes) ⟨xs, fault⟩ ∨ _ :=
        huses₁.cut_bind huses₂ hxy hys fault
      rcases hends with hrefuse | ⟨rfl, -⟩ | ⟨part, -, -, rfl, hrun⟩
      · exact hrefuse
      · exact absurd rfl hxs
      · exact Refuses.bind_of_ok hrun (refuses_readRequestAfter maxBodyBytes part none).bind
    · obtain ⟨e, u, hrefuse⟩ := refuses_readRequestAfter maxBodyBytes requestLine none
      obtain ⟨_, _, hafter, _⟩ := Reader.run_bind_ok hcont
      rw [hrefuse] at hafter
      cases hafter

/-- A request that was accepted after `k` bytes is decided by these bytes: every
    source that starts with them yields the same request and is left behind them,
    and every source that stops short of them, but not before the first byte, is
    refused. No request at all is reported only for a source without a byte. -/
theorem readRequest_complete (maxBodyBytes : Nat) :
    (∀ s r s', (readRequest maxBodyBytes).run s = (.ok (some r), s') →
      (∀ t : Source, t.bytes.take (s.bytes.length - s'.bytes.length) =
          s.bytes.take (s.bytes.length - s'.bytes.length) →
        (readRequest maxBodyBytes).run t =
          (.ok (some r), ⟨t.bytes.drop (s.bytes.length - s'.bytes.length), t.fault⟩)) ∧
      (∀ j fault, 0 < j → j < s.bytes.length - s'.bytes.length →
        ∃ e u, (readRequest maxBodyBytes).run ⟨s.bytes.take j, fault⟩ = (.err e, u))) ∧
    (∀ s s', (readRequest maxBodyBytes).run s = (.ok none, s') → s.bytes = []) := by
  refine ⟨fun s r s' h => ?_, fun s s' h => ?_⟩
  · obtain ⟨used, hbytes, hrun, hcut⟩ := exists_used_of_readRequest h
    have hk : s.bytes.length - s'.bytes.length = used.length := by
      rw [hbytes, List.length_append, Nat.add_sub_cancel]
    rw [hk]
    refine ⟨fun t ht => ?_, fun j fault hpos hlt => ?_⟩
    -- what is read again is what was used before
    · have htake : t.bytes.take used.length = used := by
        rw [ht, hbytes, List.take_left' rfl]
      have hsplit : used ++ t.bytes.drop used.length = t.bytes :=
        List.prefix_iff_eq_append.mp (htake ▸ List.take_prefix _ _)
      have hfull := hrun (t.bytes.drop used.length) t.fault
      rwa [hsplit] at hfull
    · have htake : s.bytes.take j = used.take j := by
        rw [hbytes, List.take_append_of_le_length hlt.le]
      rw [htake]
      exact hcut (used.take j) (used.drop j) (List.take_append_drop j used)
        (List.ne_nil_of_length_pos (by rw [List.length_drop]; omega))
        (List.ne_nil_of_length_pos (by rw [List.length_take]; omega)) fault
  · exact bytes_eq_nil_of_readRequest h

/-- A size line cut from `0a` to `0` does not end the body. -/
example : ((readRequest 16).run
    ⟨Utf8.encode "POST / HTTP/1.1\r\nTransfer-Encoding: chunked\r\n\r\n0", none⟩).1 =
      .err (.badRequest "unexpected_eof_in_trailers") := by decide +kernel

end OracleFn
