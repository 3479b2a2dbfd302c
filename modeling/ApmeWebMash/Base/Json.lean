-- SUMMARY: JSON documents: syntax trees, compact rendering, and a strict parser that inverts it.
import ApmeWebMash.Base.Numeral

/-! # JSON

A document is kept as its syntax tree: a number is its literal, and an object is
the list of its members, in order and with repetitions. The parser follows the
grammar of RFC 8259 and accepts nothing else. Rendering is compact and escapes
what a string must escape, so parsing undoes it. -/

/-- A JSON document. -/
inductive Json where
  | null
  | bool (b : Bool)
  | number (literal : Str)
  | string (text : Str)
  | array (items : List Json)
  | object (members : List (Str × Json))

namespace Json

/-! ## Access -/

/-- The first member under a key. -/
def lookup (key : Str) : List (Str × Json) → Option Json
  | [] => none
  | (k, v) :: members => if k = key then some v else lookup key members

/-- `Value::get` with a key. -/
def get (v : Json) (key : Str) : Option Json :=
  match v with
  | .object members => lookup key members
  | _ => none

/-- `Value::as_str`. -/
def asStr : Json → Option Str
  | .string text => some text
  | _ => none

/-- `Value::as_bool`. -/
def asBool : Json → Option Bool
  | .bool b => some b
  | _ => none

theorem asStr_eq_some {v : Json} {text : Str} : v.asStr = some text ↔ v = .string text := by
  cases v <;> simp [asStr]

theorem asBool_eq_some {v : Json} {b : Bool} : v.asBool = some b ↔ v = .bool b := by
  cases v <;> simp [asBool]

/-! ## Equality -/

mutual
/-- Equality of documents as a test. -/
def same : Json → Json → Bool
  | .null, .null => true
  | .bool a, .bool b => a == b
  | .number a, .number b => a == b
  | .string a, .string b => a == b
  | .array a, .array b => sameItems a b
  | .object a, .object b => sameMembers a b
  | _, _ => false

def sameItems : List Json → List Json → Bool
  | [], [] => true
  | v :: vs, w :: ws => same v w && sameItems vs ws
  | _, _ => false

def sameMembers : List (Str × Json) → List (Str × Json) → Bool
  | [], [] => true
  | (j, v) :: vs, (k, w) :: ws => j == k && same v w && sameMembers vs ws
  | _, _ => false
end

mutual
theorem same_iff : ∀ v w : Json, same v w ↔ v = w
  | .array a, .array b => by simp [same, sameItems_iff a b]
  | .object a, .object b => by simp [same, sameMembers_iff a b]
  | .null, w => by cases w <;> simp [same]
  | .bool _, w => by cases w <;> simp [same]
  | .number _, w => by cases w <;> simp [same]
  | .string _, w => by cases w <;> simp [same]
  | .array _, .null | .array _, .bool _ | .array _, .number _ | .array _, .string _
  | .array _, .object _ | .object _, .null | .object _, .bool _ | .object _, .number _
  | .object _, .string _ | .object _, .array _ => by simp [same]

theorem sameItems_iff : ∀ vs ws : List Json, sameItems vs ws ↔ vs = ws
  | [], ws => by cases ws <;> simp [sameItems]
  | v :: vs, [] => by simp [sameItems]
  | v :: vs, w :: ws => by simp [sameItems, same_iff v w, sameItems_iff vs ws]

theorem sameMembers_iff : ∀ vs ws : List (Str × Json), sameMembers vs ws ↔ vs = ws
  | [], ws => by cases ws <;> simp [sameMembers]
  | v :: vs, [] => by simp [sameMembers]
  | (j, v) :: vs, (k, w) :: ws => by simp [sameMembers, same_iff v w, sameMembers_iff vs ws]
end

instance : DecidableEq Json := fun v w => decidable_of_iff _ (same_iff v w)

/-! ## Rendering -/

/-- A control character in a string. -/
def controlEscape (n : Nat) : Str :=
  match n with
  | 8 => ['\\', 'b']
  | 9 => ['\\', 't']
  | 10 => ['\\', 'n']
  | 12 => ['\\', 'f']
  | 13 => ['\\', 'r']
  | n => ['\\', 'u', '0', '0', Nat.digitChar (n / 16), Nat.digitChar (n % 16)]

/-- A character of a string, escaped where it must be. -/
def escapeChar (c : Char) : Str :=
  if c = '"' ∨ c = '\\' then ['\\', c]
  else if c.toNat < 32 then controlEscape c.toNat
  else [c]

/-- The characters between the quotes of a string. -/
def escape (text : Str) : Str := text.flatMap escapeChar

mutual
/-- The compact form of a document. -/
def render : Json → Str
  | .null => ['n', 'u', 'l', 'l']
  | .bool true => ['t', 'r', 'u', 'e']
  | .bool false => ['f', 'a', 'l', 's', 'e']
  | .number literal => literal
  | .string text => '"' :: (escape text ++ ['"'])
  | .array items => '[' :: (renderItems items ++ [']'])
  | .object members => '{' :: (renderMembers members ++ ['}'])

/-- Documents separated by commas. -/
def renderItems : List Json → Str
  | [] => []
  | [v] => render v
  | v :: items => render v ++ ',' :: renderItems items

/-- Members separated by commas. -/
def renderMembers : List (Str × Json) → Str
  | [] => []
  | [(k, v)] => '"' :: (escape k ++ '"' :: ':' :: render v)
  | (k, v) :: members => '"' :: (escape k ++ '"' :: ':' :: (render v ++ ',' :: renderMembers members))
end

/-! ## Parsing -/

/-- White space between tokens. -/
def isSpace (c : Char) : Bool :=
  c = ' ' || c = '\t' || c = '\n' || c = '\r'

def skipSpace (s : Str) : Str := s.dropWhile isSpace

/-- The characters of number literals. -/
def isNumberChar (c : Char) : Bool :=
  c.isDigit || c = '-' || c = '+' || c = '.' || c = 'e' || c = 'E'

/-- One or more digits. -/
def isDigits (s : Str) : Bool := s ≠ [] && s.all Char.isDigit

/-- `e` or `E`, a sign and digits, or nothing. -/
def isExponent : Str → Bool
  | [] => true
  | c :: s =>
    (c = 'e' || c = 'E') &&
      match s with
      | '+' :: digits => isDigits digits
      | '-' :: digits => isDigits digits
      | digits => isDigits digits

/-- A point and digits, and an exponent, each of them optional. -/
def isFraction : Str → Bool
  | '.' :: s => isDigits (s.takeWhile Char.isDigit) && isExponent (s.dropWhile Char.isDigit)
  | s => isExponent s

/-- A number literal without its sign: no leading zero but zero itself. -/
def isUnsigned : Str → Bool
  | '0' :: s => isFraction s
  | s => isDigits (s.takeWhile Char.isDigit) && isFraction (s.dropWhile Char.isDigit)

/-- The grammar of number literals. -/
def isNumber : Str → Bool
  | '-' :: s => isUnsigned s
  | s => isUnsigned s

/-- Four hexadecimal digits. -/
def hex4 : Str → Option (Nat × Str)
  | a :: b :: c :: d :: s => do
    let a ← Numeral.toDigit 16 a
    let b ← Numeral.toDigit 16 b
    let c ← Numeral.toDigit 16 c
    let d ← Numeral.toDigit 16 d
    some (((a * 16 + b) * 16 + c) * 16 + d, s)
  | _ => none

/-- A `\u` escape: a code point outside the surrogates, or a surrogate pair. -/
def unicodeEscape (s : Str) : Option (Char × Str) := do
  let (high, s) ← hex4 s
  if 0xd800 ≤ high ∧ high < 0xdc00 then
    match s with
    | '\\' :: 'u' :: s =>
      let (low, s) ← hex4 s
      if 0xdc00 ≤ low ∧ low < 0xe000 then
        some (Char.ofNat (0x10000 + (high - 0xd800) * 0x400 + (low - 0xdc00)), s)
      else none
    | _ => none
  else if 0xdc00 ≤ high ∧ high < 0xe000 then none
  else some (Char.ofNat high, s)

/-- The character after a backslash. -/
def unescape : Str → Option (Char × Str)
  | '"' :: s => some ('"', s)
  | '\\' :: s => some ('\\', s)
  | '/' :: s => some ('/', s)
  | 'b' :: s => some ('\x08', s)
  | 'f' :: s => some ('\x0c', s)
  | 'n' :: s => some ('\n', s)
  | 'r' :: s => some ('\r', s)
  | 't' :: s => some ('\t', s)
  | 'u' :: s => unicodeEscape s
  | _ => none

/-- A string behind its opening quote. -/
def parseString : Nat → Str → Option (Str × Str)
  | 0, _ => none
  | _ + 1, [] => none
  | n + 1, c :: s =>
    if c = '"' then some ([], s)
    else if c = '\\' then do
      let (d, s) ← unescape s
      let (text, s) ← parseString n s
      some (d :: text, s)
    else if c.toNat < 32 then none
    else do
      let (text, s) ← parseString n s
      some (c :: text, s)

/-- A word that stands for itself. -/
def parseWord (word : Str) (v : Json) (s : Str) : Option (Json × Str) :=
  if word <+: s then some (v, s.drop word.length) else none

def parseNumber (s : Str) : Option (Json × Str) :=
  if isNumber (s.takeWhile isNumberChar) then
    some (.number (s.takeWhile isNumberChar), s.dropWhile isNumberChar)
  else none

mutual
/-- A document at the beginning of a text. The fuel bounds the steps. -/
def parseValue : Nat → Str → Option (Json × Str)
  | 0, _ => none
  | n + 1, s =>
    match skipSpace s with
    | [] => none
    | c :: s =>
      if c = '"' then do
        let (text, s) ← parseString (s.length + 1) s
        some (.string text, s)
      else if c = '[' then
        match skipSpace s with
        | ']' :: s => some (.array [], s)
        | s => do
          let (items, s) ← parseItems n s
          some (.array items, s)
      else if c = '{' then
        match skipSpace s with
        | '}' :: s => some (.object [], s)
        | s => do
          let (members, s) ← parseMembers n s
          some (.object members, s)
      else if c = 'n' then parseWord ['u', 'l', 'l'] .null s
      else if c = 't' then parseWord ['r', 'u', 'e'] (.bool true) s
      else if c = 'f' then parseWord ['a', 'l', 's', 'e'] (.bool false) s
      else parseNumber (c :: s)

/-- The documents of an array and the closing bracket. -/
def parseItems : Nat → Str → Option (List Json × Str)
  | 0, _ => none
  | n + 1, s => do
    let (v, s) ← parseValue n s
    match skipSpace s with
    | ',' :: s =>
      let (items, s) ← parseItems n s
      some (v :: items, s)
    | ']' :: s => some ([v], s)
    | _ => none

/-- The members of an object and the closing brace. -/
def parseMembers : Nat → Str → Option (List (Str × Json) × Str)
  | 0, _ => none
  | n + 1, s =>
    match skipSpace s with
    | '"' :: s => do
      let (k, s) ← parseString (s.length + 1) s
      match skipSpace s with
      | ':' :: s =>
        let (v, s) ← parseValue n s
        match skipSpace s with
        | ',' :: s =>
          let (members, s) ← parseMembers n s
          some ((k, v) :: members, s)
        | '}' :: s => some ([(k, v)], s)
        | _ => none
      | _ => none
    | _ => none
end

/-- A text that is one document. -/
def parse (s : Str) : Option Json := do
  let (v, s) ← parseValue (2 * s.length + 2) s
  if skipSpace s = [] then some v else none

end Json
