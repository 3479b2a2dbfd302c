-- SUMMARY: The log lines of the Fn adapter about failures, and when the text of an error survives in them.
import ApmeWebMash.Adapters.CorrelationId

/-! # Failures in the log

`run` and `handle_stream` report a failure in one line of JSON that they format
by hand. The text of the error is stripped of control characters and cut, and
put between quotes as it is. -/

namespace OracleFn

open Adapters (NeedsNoEscape newline_not_mem)

/-- `escape_log_value`. -/
def escapeLogValue (value : Str) : Str :=
  (value.filter fun c => !Str.isControl c).take 256

/-- The failures that are reported, with the text of their error: `handle_stream`
    failed on a connection, the listener failed, or reading a request failed. -/
inductive Failure where
  | connection (error : Str)
  | accept (error : Str)
  | requestRead (error : Str)
deriving DecidableEq

def Failure.error : Failure → Str
  | .connection error => error
  | .accept error => error
  | .requestRead error => error

/-- The line about a failure, without its end. -/
def failureLine (event handler error : Str) : Str :=
  "\x7b\"level\":\"error\",\"event\":\"" ++ event ++ "\",\"handler\":\"" ++ handler ++
    "\",\"error\":\"" ++ escapeLogValue error ++ "\"\x7d"

/-- The name of the event. -/
def Failure.event : Failure → Str
  | .connection _ => "oracle_fn_connection_failed"
  | .accept _ => "oracle_fn_accept_failed"
  | .requestRead _ => "oracle_fn_request_read_failed"

/-- What `eprintln!` writes about a failure. -/
def Failure.line (handler : Str) (failure : Failure) : Str :=
  failureLine failure.event handler failure.error

/-- A line that reports an error: one line, which holds one JSON object with the
    beginning of the text of the error, without its control characters. -/
structure ReportsError (line error : Str) : Prop where
  one_line : '\n' ∉ line
  object : ∃ members, Json.parse line = some (.object members) ∧
    (members.map Prod.fst).Perm ["level", "event", "handler", "error"] ∧
    (("error" : Str), Json.string ((error.filter fun c => !Str.isControl c).take 256)) ∈ members

/-! ## The parts of a line -/

/-- The members, the last of them put together by hand, cut where the line
    interpolates its values. -/
theorem joined_eq {event handler error head handlerKey errorKey last : Str}
    (hevent : NeedsNoEscape event) (hhandler : NeedsNoEscape handler)
    (hhead : head = '{' :: '"' :: (Json.escape "level" ++ '"' :: ':' :: '"' ::
      (Json.escape "error" ++ '"' :: ',' :: '"' :: (Json.escape "event" ++ ['"', ':', '"']))))
    (hhandlerKey : handlerKey = '"' :: ',' :: '"' :: (Json.escape "handler" ++ ['"', ':', '"']))
    (herrorKey : errorKey = '"' :: ',' :: '"' :: (Json.escape "error" ++ ['"', ':', '"']))
    (hlast : last = ['"', '}']) :
    head ++ event ++ handlerKey ++ handler ++ errorKey ++ error ++ last =
      '{' :: Json.openMember "level" (Json.escape "error" ++ '"' :: ',' ::
        Json.openMember "event" (Json.escape event ++ '"' :: ',' ::
          Json.openMember "handler" (Json.escape handler ++ '"' :: ',' ::
            Json.openMember "error" (error ++ ['"', '}'])))) := by
  subst hhead hhandlerKey herrorKey hlast
  simp only [Json.openMember, Json.escape_eq_self hevent, Json.escape_eq_self hhandler,
    List.append_assoc, List.cons_append, List.nil_append]

theorem failureLine_eq {event handler : Str} (hevent : NeedsNoEscape event)
    (hhandler : NeedsNoEscape handler) (error : Str) :
    failureLine event handler error =
      '{' :: Json.openMember "level" (Json.escape "error" ++ '"' :: ',' ::
        Json.openMember "event" (Json.escape event ++ '"' :: ',' ::
          Json.openMember "handler" (Json.escape handler ++ '"' :: ',' ::
            Json.openMember "error" (escapeLogValue error ++ ['"', '}'])))) :=
  joined_eq hevent hhandler (by decide +kernel) (by decide +kernel) (by decide +kernel) (by decide)

/-- The members of a line whose error needs no escape. -/
def failureMembers (event handler error : Str) : List (Str × Str) := [
  ("level", "error"), ("event", event), ("handler", handler), ("error", escapeLogValue error)]

theorem failureLine_eq_render {event handler error : Str} (hevent : NeedsNoEscape event)
    (hhandler : NeedsNoEscape handler) (herror : NeedsNoEscape (escapeLogValue error)) :
    failureLine event handler error =
      Json.render (.object (Json.strings (failureMembers event handler error))) := by
  rw [failureLine_eq hevent hhandler]
  simp only [failureMembers, Json.strings, List.map_cons, List.map_nil, Json.render,
    Json.renderMembers, Json.openMember, Json.escape_eq_self herror, List.append_assoc,
    List.cons_append, List.nil_append]

/-! ## Lines -/

theorem isControl_escapeLogValue {error : Str} :
    ∀ c ∈ escapeLogValue error, Str.isControl c = false := by
  intro c hc
  have hkept := (List.mem_filter.mp (List.mem_of_mem_take hc)).2
  rwa [Bool.not_eq_true'] at hkept

theorem needsNoEscape_iff_marks {error : Str} :
    NeedsNoEscape (escapeLogValue error) ↔ ∀ c ∈ escapeLogValue error, Json.isMark c = false := by
  refine forall₂_congr fun c hc => ?_
  have hcontrol := isControl_escapeLogValue c hc
  rw [Str.isControl, Bool.or_eq_false_iff, decide_eq_false_iff_not, Nat.not_lt] at hcontrol
  cases hmark : Json.isMark c with
  | true =>
    rw [Json.escapeChar_of_mark hmark]
    simp
  | false => exact iff_of_true (Json.escapeChar_of_not_mark hmark hcontrol.1) rfl

theorem newline_not_mem_failureLine {event handler error : Str} (hevent : NeedsNoEscape event)
    (hhandler : NeedsNoEscape handler) : '\n' ∉ failureLine event handler error := by
  have herror : '\n' ∉ escapeLogValue error := fun hc =>
    absurd (isControl_escapeLogValue _ hc) (by decide)
  unfold failureLine
  simp only [List.mem_append, not_or]
  refine ⟨⟨⟨⟨⟨⟨?_, newline_not_mem hevent⟩, ?_⟩, newline_not_mem hhandler⟩, ?_⟩, herror⟩, ?_⟩
  all_goals decide +kernel

/-- The three names before the error are no names of an error. -/
theorem error_ne_names :
    ∀ name ∈ (["level", "event", "handler"] : List Str), ("error" : Str) ≠ name := by decide

theorem reportsError_of_needsNoEscape {event handler error : Str} (hevent : NeedsNoEscape event)
    (hhandler : NeedsNoEscape handler) (herror : NeedsNoEscape (escapeLogValue error)) :
    ReportsError (failureLine event handler error) error where
  one_line := newline_not_mem_failureLine hevent hhandler
  object := by
    refine ⟨Json.strings (failureMembers event handler error), ?_, List.Perm.refl _, ?_⟩
    · rw [failureLine_eq_render hevent hhandler herror]
      refine Json.parse_render ?_
      simp only [failureMembers, Json.strings, List.map_cons, List.map_nil, Json.WellFormed,
        Json.WellFormedMembers, and_self]
    · simp only [failureMembers, Json.strings, List.map_cons, List.map_nil, escapeLogValue,
        List.mem_cons, true_or, or_true]

/-- The error that is read is the one that was written only if no mark ends or
    changes it. -/
theorem not_mark_of_reportsError {event handler error : Str} (hevent : NeedsNoEscape event)
    (hhandler : NeedsNoEscape handler) (h : ReportsError (failureLine event handler error) error) :
    ∀ c ∈ escapeLogValue error, Json.isMark c = false := by
  obtain ⟨members, hparse, hnames, hmem⟩ := h.object
  rw [failureLine_eq hevent hhandler error] at hparse
  obtain ⟨n, rest, hmembers⟩ := Json.parseMembers_of_parse hparse
  obtain ⟨n₁, tail₁, hlevel, rfl⟩ := Json.parseMembers_closed hmembers
  obtain ⟨n₂, tail₂, hevent, rfl⟩ := Json.parseMembers_closed hlevel
  obtain ⟨n₃, tail₃, hhandler, rfl⟩ := Json.parseMembers_closed hevent
  obtain ⟨-, text, -, tail, -, -, rfl⟩ := Json.parseMembers_openMember hhandler
  have hlength := hnames.length_eq
  simp only [List.map_cons, List.length_cons, List.length_map, List.length_nil] at hlength
  have hnil : tail = [] := List.length_eq_zero_iff.mp (by omega)
  have hne := error_ne_names
  simp only [List.forall_mem_cons] at hne
  obtain ⟨hneLevel, hneEvent, hneHandler, -⟩ := hne
  have htext : Json.string (escapeLogValue error) = .string text := by
    rw [hnil] at hmem
    rw [escapeLogValue]
    simpa only [List.mem_cons, Prod.mk.injEq, hneLevel, hneEvent, hneHandler, false_and, false_or,
      true_and, List.not_mem_nil, or_false] using hmem
  rw [← htext] at hhandler
  exact Json.not_mark_of_parseMembers hhandler

/-! ## Failures -/

theorem Failure.needsNoEscape_event (failure : Failure) : NeedsNoEscape failure.event := by
  cases failure with
  | connection _ => exact Str.forall_mem (s := "oracle_fn_connection_failed") (by decide +kernel)
  | accept _ => exact Str.forall_mem (s := "oracle_fn_accept_failed") (by decide +kernel)
  | requestRead _ => exact Str.forall_mem (s := "oracle_fn_request_read_failed") (by decide +kernel)

/-- Every line about a failure is a line of JSON with the text of the error, if
    and only if there is no quote and no backslash in what is shown of it. -/
theorem failure_line_iff (failure : Failure) {handler : Str} (hhandler : NeedsNoEscape handler) :
    ReportsError (failure.line handler) failure.error ↔
      ∀ c ∈ (failure.error.filter fun c => !Str.isControl c).take 256, c ≠ '"' ∧ c ≠ '\\' := by
  have hmarks : (∀ c ∈ escapeLogValue failure.error, Json.isMark c = false) ↔
      ∀ c ∈ (failure.error.filter fun c => !Str.isControl c).take 256, c ≠ '"' ∧ c ≠ '\\' := by
    refine forall₂_congr fun c _ => ?_
    rw [Json.isMark, Bool.or_eq_false_iff, decide_eq_false_iff_not, decide_eq_false_iff_not]
  rw [← hmarks]
  constructor
  · exact not_mark_of_reportsError failure.needsNoEscape_event hhandler
  · intro h
    exact reportsError_of_needsNoEscape failure.needsNoEscape_event hhandler
      (needsNoEscape_iff_marks.mpr h)

theorem failure_line_iff_cases :
    ReportsError ((Failure.accept "Too many open files (os error 24)").line "cases")
        "Too many open files (os error 24)" ↔
      ∀ c ∈ (("Too many open files (os error 24)" : Str).filter fun c => !Str.isControl c).take 256,
        c ≠ '"' ∧ c ≠ '\\' :=
  failure_line_iff (.accept "Too many open files (os error 24)")
    (Str.forall_mem (by decide +kernel))

/-- A quote ends the text early. -/
theorem not_reportsError_quote :
    ¬ ReportsError ((Failure.connection "a\"b").line "cases") "a\"b" := by
  intro h
  have hevent := (Failure.connection "a\"b").needsNoEscape_event
  have hmark := not_mark_of_reportsError hevent (Str.forall_mem (by decide +kernel)) h '"'
    (by decide)
  cases hmark

end OracleFn
