-- SUMMARY: CloudEvents attributes: what both decoders require of an event.
import ApmeWebMash.Base.Json

/-! # CloudEvents attributes

An event carries its attributes in the members of an envelope (structured mode)
or in headers (binary mode). In either mode, and in either adapter, the version
must be `1.0` and three attributes must be present and not blank. -/

namespace Lambdas.CloudEvent

/-- `.map(str::trim).filter(|value| !value.is_empty())`. -/
def nonBlank (value : Str) : Option Str :=
  if Str.trim value = [] then none else some (Str.trim value)

/-- The loop over the required attributes: the first one that is missing is
    reported. -/
def requireAll (present : Str → Bool) : List Str → Except Str Unit
  | [] => .ok ()
  | name :: names =>
    if present name then requireAll present names
    else .error (("missing_cloud_event_" : Str) ++ name)

/-- The required attributes, in the order of the checks. -/
def attributes : List Str := ["id", "source", "type"]

/-- The check of the version and of the required attributes. -/
def validate (version : Option Str) (present : Str → Bool) : Except Str Unit :=
  if version ≠ some ("1.0" : Str) then .error "unsupported_cloud_event_version"
  else requireAll present attributes

/-- The text of a member that is not blank. -/
def textMember (envelope : Json) (name : Str) : Option Str :=
  ((envelope.get name).bind Json.asStr).bind nonBlank

/-- The check of a structured event. -/
def validateEnvelope (envelope : Json) : Except Str Unit :=
  validate ((envelope.get "specversion").bind Json.asStr) fun name => (textMember envelope name).isSome

/-- The data of a structured event: an empty object when there is none. -/
def data (envelope : Json) : Json :=
  (envelope.get "data").getD (.object [])

theorem requireAll_eq_ok {present : Str → Bool} {names : List Str} :
    requireAll present names = .ok () ↔ ∀ name ∈ names, present name := by
  induction names with
  | nil => simp [requireAll]
  | cons name names ih =>
    rw [requireAll, List.forall_mem_cons]
    cases hname : present name
    · simp
    · simpa using ih

theorem validate_eq_ok {version : Option Str} {present : Str → Bool} :
    validate version present = .ok () ↔
      version = some ("1.0" : Str) ∧ ∀ name ∈ attributes, present name := by
  rw [validate]
  by_cases hversion : version = some ("1.0" : Str)
  · rw [if_neg (not_not.mpr hversion), requireAll_eq_ok]
    exact ⟨fun h => ⟨hversion, h⟩, fun h => h.2⟩
  · rw [if_pos hversion]
    exact ⟨fun h => (by cases h), fun h => absurd h.1 hversion⟩

theorem nonBlank_isSome {value : Str} : (nonBlank value).isSome ↔ Str.trim value ≠ [] := by
  rw [nonBlank]
  by_cases h : Str.trim value = [] <;> simp [h]

end Lambdas.CloudEvent
