-- SUMMARY: Correlation identifiers: the sanitizer and the generated fallback, and what every identifier satisfies.
import ApmeWebMash.Base.Numeral

/-! # Correlation identifiers

An identifier is taken from an untrusted source and reduced to a small alphabet,
or made from the process and the clock. The portable crate and the Oracle/Fn
adapter each have a copy of both functions; the copies differ in the prefix of
the generated identifier. -/

namespace Lambdas

/-- What an identifier is made of when a request brings none: the process, and
    the nanoseconds since the epoch as a `u128`. -/
structure Host where
  pid : UInt32
  nanos : Nat
  nanos_lt : nanos < 2 ^ 128

namespace RequestId

/-- The alphabet of identifiers. -/
def isIdChar (c : Char) : Bool :=
  c.isAlphanum || c == '-' || c == '_' || c == '.' || c == ':' || c == '/'

/-- `sanitize_request_id`. -/
def sanitize (value : Str) : Option Str :=
  let sanitized := ((Str.trim value).filter isIdChar).take 128
  if sanitized = [] then none else some sanitized

/-- `generated_request_id`, with the prefix of the crate. -/
def generated (pre : Str) (host : Host) : Str :=
  pre ++ Numeral.decimal host.pid.toNat ++ '-' :: Numeral.decimal host.nanos

end RequestId

/-- `sanitize_request_id` of the portable crate. -/
def sanitizeRequestId (value : Str) : Option Str := RequestId.sanitize value

/-- `generated_request_id` of the portable crate. -/
def generatedRequestId (host : Host) : Str := RequestId.generated "scintilla-" host

/-! ## Valid identifiers -/

/-- What an identifier must be to stand in a log line or in a header. -/
structure ValidRequestId (id : Str) : Prop where
  ne_nil : id ≠ []
  length_le : id.length ≤ 128
  chars : ∀ c ∈ id, RequestId.isIdChar c

theorem RequestId.visible_of_isIdChar {c : Char} (h : isIdChar c) : 32 < c.toNat ∧ c.toNat < 127 := by
  simp only [isIdChar, Bool.or_eq_true, beq_iff_eq] at h
  rcases h with ((((halnum | rfl) | rfl) | rfl) | rfl) | rfl
  · obtain ⟨hlow, hhigh⟩ := Str.toNat_of_isAlphanum halnum
    omega
  all_goals decide

theorem RequestId.valid_of_sanitize {value id : Str} (h : sanitize value = some id) :
    ValidRequestId id := by
  rw [sanitize] at h
  split at h
  · cases h
  · rename_i hne
    obtain rfl := Option.some.inj h
    refine ⟨hne, ?_, fun c hc => ?_⟩
    · rw [List.length_take]
      exact Nat.min_le_left _ _
    · exact (List.mem_filter.mp (List.mem_of_mem_take hc)).2

/-- Trimming first makes no difference. -/
theorem RequestId.sanitize_trim (value : Str) : sanitize (Str.trim value) = sanitize value := by
  rw [sanitize, sanitize, Str.trim_trim]

/-- The generated identifier is within bounds: the process takes at most 10
    digits and the clock at most 39. -/
theorem RequestId.valid_generated {pre : Str} (hchars : ∀ c ∈ pre, isIdChar c)
    (hlen : pre.length ≤ 78) (host : Host) : ValidRequestId (generated pre host) := by
  have hdecimal : ∀ n, ∀ c ∈ Numeral.decimal n, isIdChar c := by
    intro n c hc
    simp [isIdChar, (Numeral.writes_decimal n).isAlphanum c hc]
  have hpid : (Numeral.decimal host.pid.toNat).length ≤ 10 :=
    Numeral.length_decimal_le (by decide) (lt_trans host.pid.toNat_lt (by decide))
  have hnanos : (Numeral.decimal host.nanos).length ≤ 39 :=
    Numeral.length_decimal_le (by decide) (lt_trans host.nanos_lt (by decide))
  refine ⟨by simp [generated], ?_, fun c hc => ?_⟩
  · simp only [generated, List.length_append, List.length_cons]
    omega
  · rw [generated, List.append_assoc, List.mem_append, List.mem_append, List.mem_cons] at hc
    rcases hc with hc | hc | rfl | hc
    · exact hchars c hc
    · exact hdecimal _ c hc
    · decide
    · exact hdecimal _ c hc

theorem valid_generatedRequestId (host : Host) : ValidRequestId (generatedRequestId host) :=
  RequestId.valid_generated (Str.forall_mem (by decide)) (by decide) host

/-- An identifier from a source that may bring none. -/
theorem valid_sanitizeRequestId_getD (source : Option Str) (host : Host) :
    ValidRequestId ((source.bind sanitizeRequestId).getD (generatedRequestId host)) := by
  cases h : source.bind sanitizeRequestId with
  | none => exact valid_generatedRequestId host
  | some id =>
    obtain ⟨value, -, hid⟩ := Option.bind_eq_some_iff.mp h
    exact RequestId.valid_of_sanitize hid

namespace ValidRequestId

variable {id : Str}

theorem visible (h : ValidRequestId id) : ∀ c ∈ id, 32 < c.toNat ∧ c.toNat < 127 :=
  fun c hc => RequestId.visible_of_isIdChar (h.chars c hc)

theorem isVisibleAscii (h : ValidRequestId id) : ∀ c ∈ id, Str.isVisibleAscii c := by
  intro c hc
  have := h.visible c hc
  simp only [Str.isVisibleAscii, Bool.and_eq_true, decide_eq_true_eq]
  omega

end ValidRequestId

end Lambdas
