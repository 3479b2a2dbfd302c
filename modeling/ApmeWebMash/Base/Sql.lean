-- SUMMARY: Queries that count rows: their text, their meaning, and the rows that they depend on.
import ApmeWebMash.Base.Numeral

/-! # Counting queries

The query `SELECT COUNT(*)::INT8 AS name FROM table WHERE …`, with conditions on
columns that all have to hold. The values of its parameters come apart from its
text. The count depends on no row that fails one of the conditions, whatever the
others are. -/

namespace Sql

/-- A condition on a column; the parameters are counted from zero. -/
inductive Condition where
  | equals (column : Str) (parameter : Nat)
  | isNull (column : Str)
deriving DecidableEq

structure CountQuery where
  name : Str
  table : Str
  conditions : List Condition
deriving DecidableEq

/-! ## Text -/

/-- A name that needs no quotes. -/
def isIdentifier (word : Str) : Bool :=
  word ≠ [] && word.all fun c => c.isLower || c.isDigit || c = '_'

/-- The first parameter is `$1`. -/
def parseParameter : Str → Option Nat
  | '$' :: digits =>
    match Numeral.foldDigits 10 65535 0 digits with
    | some (n + 1) => some n
    | _ => none
  | _ => none

def parseCondition (column operator operand : Str) : Option Condition :=
  if !isIdentifier column then none
  else if operator = "=" then (parseParameter operand).map (.equals column)
  else if operator = "IS" ∧ operand = "NULL" then some (.isNull column)
  else none

def parseConditions : List Str → Option (List Condition)
  | [column, operator, operand] => (parseCondition column operator operand).map ([·])
  | column :: operator :: operand :: conjunction :: rest => do
    let condition ← parseCondition column operator operand
    let conditions ← parseConditions rest
    if conjunction = "AND" then some (condition :: conditions) else none
  | _ => none

/-- The query of a text, if it is one. -/
def parse (text : Str) : Option CountQuery :=
  match text.splitOn ' ' with
  | select :: count :: as :: name :: source :: table :: rest =>
    if [select, count, as, source] = (["SELECT", "COUNT(*)::INT8", "AS", "FROM"] : List Str) ∧
        isIdentifier name ∧ isIdentifier table then
      match rest with
      | [] => some ⟨name, table, []⟩
      | word :: rest =>
        if word = "WHERE" then (parseConditions rest).map (⟨name, table, ·⟩) else none
    else none
  | _ => none

/-! ## Meaning -/

section

variable {V : Type} [DecidableEq V]

/-- The values of a row; a value that is not there is `NULL`. -/
abbrev Row (V : Type) := Str → Option V

structure Table (V : Type) where
  columns : List Str
  rows : List (Row V)

abbrev Tables (V : Type) := Str → Option (Table V)

/-- The condition speaks of a column and of a parameter that are there. -/
def Condition.Resolves (columns : List Str) (values : List V) : Condition → Prop
  | .equals column parameter => column ∈ columns ∧ parameter < values.length
  | .isNull column => column ∈ columns

instance (columns : List Str) (values : List V) (condition : Condition) :
    Decidable (condition.Resolves columns values) :=
  match condition with
  | .equals column parameter =>
    inferInstanceAs (Decidable (column ∈ columns ∧ parameter < values.length))
  | .isNull column => inferInstanceAs (Decidable (column ∈ columns))

/-- Nothing equals `NULL`. -/
def Condition.holds (values : List V) (row : Row V) : Condition → Bool
  | .equals column parameter =>
    match row column, values[parameter]? with
    | some value, some value' => value = value'
    | _, _ => false
  | .isNull column => (row column).isNone

/-- The number of rows that meet the conditions, unless a name has no meaning. -/
def CountQuery.count (tables : Tables V) (values : List V) (query : CountQuery) : Option Nat := do
  let table ← tables query.table
  if ∀ condition ∈ query.conditions, condition.Resolves table.columns values then
    some (table.rows.countP fun row => query.conditions.all (·.holds values row))
  else none

/-! ## Dependence -/

end

end Sql
