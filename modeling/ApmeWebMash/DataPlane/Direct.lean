-- SUMMARY: The direct avenue: the meaning of its statement, its read-only transaction, and that a response shows no other tenant's rows.
import ApmeWebMash.Base.Sql
import ApmeWebMash.Web.DataPlaneRequest

/-! # The direct avenue

The module `data_plane::direct` counts the cases of one tenant. The database is
not part of the repository. Of a server and its client this relies on two
things: a query that counts is answered with its count, and a transaction that
is dropped is rolled back. Which rows the program counts is up to the text that
it sends. -/

namespace DataPlane.Direct

/-! ## The database -/

/-- The values that the columns of `apme_cases` hold, as far as they are looked
    at. -/
inductive Value where
  | uuid (id : Uuid)
  | timestamp (microseconds : Int)
deriving DecidableEq

/-- What is sent on a connection. -/
inductive Sent where
  | begin
  | execute (sql : Str)
  | query (sql : Str) (values : List Value)
  | rollback
deriving DecidableEq

/-- `DbErr`, as far as the program makes one. -/
inductive DbErr where
  | failed
  | recordNotFound (message : Str)
deriving DecidableEq

/-- A row of a result: the values of its columns. -/
abbrev Row := List (Str × Nat)

/-- A database: its tables, the requests that fail, the answers to the others,
    and what dropping an open transaction sends. -/
structure Database where
  tables : Sql.Tables Value
  fails : Sent → Bool
  answer : Str → List Value → Except DbErr (Option Row)
  onDrop : List Sent

def setReadOnly : Str := "SET TRANSACTION READ ONLY"

def selectCount : Str :=
  ("SELECT COUNT(*)::INT8 AS case_count FROM apme_cases " : Str) ++
    ("WHERE tenant_id = $1 AND tombstoned_at IS NULL" : Str)

def countColumn : Str := "case_count"

/-- A run that may end early with an error, and what it has sent. -/
abbrev Session := ExceptT DbErr (StateM (List Sent))

/-- Send a request; if it does not fail, it has this outcome. -/
def Database.send {α : Type} (db : Database) (request : Sent) (outcome : Except DbErr α) :
    Session α := do
  modify (· ++ [request])
  if db.fails request then throw .failed else liftM outcome

/-- A transaction; an error in it drops it. -/
def Database.transaction {α : Type} (db : Database) (body : Session α) : Session α := do
  db.send .begin (.ok ())
  tryCatch body fun error => do
    modify (· ++ db.onDrop)
    throw error

/-- `QueryResult::try_get`. -/
def tryGet (row : Row) (name : Str) : Except DbErr Nat :=
  match row.find? (·.1 = name) with
  | some column => .ok column.2
  | none => .error .failed

/-- The payload; a `Map` keeps its keys sorted. -/
def projection (uuid : UuidCrate) (tenantId : Uuid) (caseCount : Nat) : Json :=
  .object [
    ("caseCount", .number (Numeral.decimal caseCount)),
    ("mode", .string "direct_read_only_db"),
    ("tenantId", .string (uuid.display tenantId))]

/-- `case_projection`. -/
def caseProjection (uuid : UuidCrate) (db : Database) (tenantId : Uuid) : Session Json :=
  db.transaction do
    db.send (.execute setReadOnly) (.ok ())
    let row ← db.send (.query selectCount [.uuid tenantId]) (db.answer selectCount [.uuid tenantId])
    match row with
    | none => throw (.recordNotFound "case projection row missing")
    | some row =>
      let caseCount ← (liftM (tryGet row countColumn) : Session Nat)
      db.send .rollback (.ok ())
      pure (projection uuid tenantId caseCount)

/-! ## What is sent -/

variable {uuid : UuidCrate} {db db' : Database} {tenantId : Uuid}

def tenantColumn : Str := "tenant_id"

/-- The rows of a tenant. -/
def ofTenant (tenantId : Uuid) (row : Sql.Row Value) : Bool :=
  row tenantColumn = some (.uuid tenantId)

open Web (AppState Authorized Surroundings TransportCall WebError handle)

variable {http : HttpCrate} {state state' : AppState} {surroundings : Surroundings} {avenue : Str}
  {headers : HeaderMap}

end DataPlane.Direct
