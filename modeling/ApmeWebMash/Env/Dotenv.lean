-- SUMMARY: The dotenv loader `dotenv.py`: from the decrypted text to names and values.
import ApmeWebMash.Base.BTreeMap
import ApmeWebMash.Base.Text
import ApmeWebMash.Base.UnicodeEscape

/-! # The dotenv loader

`parse` of `.just/dotenv.py`. A line is an assignment, or is passed over. A value
in quotes loses them, and between double quotes the escapes are expanded. A
value is a Python `str`, so it is compared by its code points. -/

namespace Env

open UnicodeEscape (codePoints decode)

/-- `[A-Za-z0-9_]`. -/
def isNameChar (c : Char) : Bool := c.isAlphanum || c == '_'

/-- `[A-Za-z_][A-Za-z0-9_]*`. -/
def isName : Str → Bool
  | [] => false
  | c :: s => isNameChar c && !c.isDigit && s.all isNameChar

/-! ## Lines -/

/-- `str.isspace` of one character. -/
def isSpace (c : Char) : Bool := Str.isWhitespace c || (0x1c ≤ c.toNat && c.toNat ≤ 0x1f)

/-- Text streams end a line at a carriage return as well. -/
def universalNewlines : Str → Str
  | [] => []
  | '\r' :: '\n' :: s => '\n' :: universalNewlines s
  | '\r' :: s => '\n' :: universalNewlines s
  | c :: s => c :: universalNewlines s

/-- The lines of a stream, without their ends. -/
def streamLines (text : Str) : List Str := (universalNewlines text).splitOn '\n'

def isBlank (line : Str) : Bool := line.all isSpace

def isComment (line : Str) : Bool := Str.startsWith (line.dropWhile isSpace) "#"

/-- A line without a leading `export`. -/
def stripExport (line : Str) : Str := (Str.stripPrefix line "export ").getD line

/-- The name and the text of the value, if the line is an assignment and no
    metadata of sops. -/
def assignment (line : Str) : Option (Str × Str) :=
  if isBlank line || isComment line then none
  else
    match Str.splitOnce '=' (stripExport line) with
    | some (key, value) => if isName key && !Str.startsWith key "sops_" then some (key, value) else none
    | none => none

/-! ## Values -/

/-- `len(v) >= 2 and v[0] == v[-1] == quote`. -/
def isQuoted (quote : Char) (value : Str) : Bool :=
  2 ≤ value.length && value.head? = some quote && value.getLast? = some quote

/-- `v[1:-1]`. -/
def inner (value : Str) : Str := (value.drop 1).dropLast

section
variable (getcode : List UInt8 → Option Nat)

/-- The value for its text: `none` where decoding raises. -/
def unquote (value : Str) : Option (List Nat) :=
  if isQuoted '"' value then decode getcode (Utf8.encode (inner value))
  else if isQuoted '\'' value then some (codePoints (inner value))
  else some (codePoints value)

/-- The assignments of a text, in order. -/
def assignments (text : Str) : List (Str × Str) := (streamLines text).filterMap assignment

/-- `parse`. -/
def parse (text : Str) : Option (List (Str × List Nat)) :=
  (assignments text).mapM fun pair => (unquote getcode pair.2).map fun value => (pair.1, value)

end

/-! ## Values by name -/

/-- What stands under a name, in order. -/
def valuesOf {β : Type} (key : Str) (pairs : List (Str × β)) : List β :=
  (pairs.filter (·.1 = key)).map Prod.snd

variable {getcode : List UInt8 → Option Nat} {key value : Str}

theorem valuesOf_cons {β : Type} (key : Str) (pair : Str × β) (pairs : List (Str × β)) :
    valuesOf key (pair :: pairs) =
      if pair.1 = key then pair.2 :: valuesOf key pairs else valuesOf key pairs := by
  unfold valuesOf
  split
  · rename_i h
    rw [List.filter_cons_of_pos (by simpa using h), List.map_cons]
  · rename_i h
    rw [List.filter_cons_of_neg (by simpa using h)]

/-- When pairs are exported in order, the last value under a name stays. -/
theorem get_ofList {β : Type} (pairs : List (Str × β)) (key : Str) :
    (BTreeMap.ofList pairs).get key = (valuesOf key pairs).getLast? := by
  have hfold : ∀ m : BTreeMap Str β,
      (pairs.foldl (fun m e => m.insert e.1 e.2) m).get key =
        (valuesOf key pairs).getLast?.or (m.get key) := by
    induction pairs with
    | nil => exact fun m => rfl
    | cons pair pairs ih =>
      intro m
      rw [List.foldl_cons, ih, BTreeMap.get_insert, valuesOf_cons]
      by_cases hkey : pair.1 = key
      · rw [if_pos hkey, if_pos hkey.symm, List.getLast?_cons]
        cases (valuesOf key pairs).getLast? <;> rfl
      · rw [if_neg hkey, if_neg (Ne.symm hkey)]
  rw [BTreeMap.ofList, hfold, BTreeMap.get_empty, Option.or_none]

/-- Where all values can be read, they are read one by one. -/
theorem mapM_values {β γ : Type} (f : β → Option γ) {pairs : List (Str × β)}
    {read : List (Str × γ)}
    (h : (pairs.mapM fun pair => (f pair.2).map fun value => (pair.1, value)) = some read) :
    (∀ pair ∈ pairs, (f pair.2).isSome) ∧
      ∀ key, (valuesOf key pairs).map f = (valuesOf key read).map some := by
  induction pairs generalizing read with
  | nil =>
    obtain rfl := Option.some.inj h
    exact ⟨fun pair hpair => (by cases hpair), fun key => rfl⟩
  | cons pair pairs ih =>
    rw [List.mapM_cons] at h
    obtain ⟨first, hfirst, h⟩ := Option.bind_eq_some_iff.mp h
    obtain ⟨value, hvalue, rfl⟩ := Option.map_eq_some_iff.mp hfirst
    obtain ⟨rest, hrest, h⟩ := Option.bind_eq_some_iff.mp h
    obtain rfl := Option.some.inj h
    obtain ⟨hall, hvalues⟩ := ih hrest
    refine ⟨List.forall_mem_cons.mpr ⟨by rw [hvalue]; rfl, hall⟩, fun key => ?_⟩
    rw [valuesOf_cons, valuesOf_cons]
    split
    · rw [List.map_cons, List.map_cons, hvalues, hvalue]
    · exact hvalues key

theorem mapM_isSome {β γ : Type} {f : β → Option γ} {pairs : List (Str × β)}
    (h : ∀ pair ∈ pairs, (f pair.2).isSome) :
    ∃ read, (pairs.mapM fun pair => (f pair.2).map fun value => (pair.1, value)) = some read := by
  induction pairs with
  | nil => exact ⟨[], rfl⟩
  | cons pair pairs ih =>
    obtain ⟨hpair, hpairs⟩ := List.forall_mem_cons.mp h
    obtain ⟨value, hvalue⟩ := Option.isSome_iff_exists.mp hpair
    obtain ⟨rest, hrest⟩ := ih hpairs
    refine ⟨(pair.1, value) :: rest, ?_⟩
    rw [List.mapM_cons, hrest, hvalue]
    rfl

/-- What `parse` returns when its pairs are exported in order. -/
theorem get_parse {text : Str} {pairs : List (Str × List Nat)}
    (h : parse getcode text = some pairs) (key : Str) :
    (BTreeMap.ofList pairs).get key =
      (valuesOf key (assignments text)).getLast?.bind (unquote getcode) := by
  have hvalues := (mapM_values _ h).2 key
  have hlast := congrArg List.getLast? hvalues
  rw [List.getLast?_map, List.getLast?_map] at hlast
  rw [get_ofList]
  cases hraw : (valuesOf key (assignments text)).getLast? with
  | none =>
    rw [hraw, Option.map_none] at hlast
    exact Option.map_eq_none_iff.mp hlast.symm
  | some raw =>
    rw [hraw, Option.map_some] at hlast
    obtain ⟨value, hvalue, heq⟩ := Option.map_eq_some_iff.mp hlast.symm
    rw [hvalue, Option.bind_some, ← heq]

theorem parse_isSome_iff {text : Str} :
    (∃ pairs, parse getcode text = some pairs) ↔
      ∀ pair ∈ assignments text, (unquote getcode pair.2).isSome :=
  ⟨fun ⟨_, h⟩ => (mapM_values _ h).1, mapM_isSome⟩

end Env
