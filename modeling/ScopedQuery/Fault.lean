import ScopedQuery.Text.Digits
/-!
# Faults

Everything that can go wrong, by cause, with the wording and the code of each in one place.
`FaultReport` is the form in which a fault leaves the library.
-/

namespace ScopedQuery

inductive DatabaseFault
  | rowNotFound
  | columnNotFound (name : String)
  | poolTimedOut
  | poolClosed
  | server (code message : String) (detail : Option String)
  /-- A cell of a reply does not hold what its type says. -/
  | decoding (reason : String)
  | configuration (reason : String)
deriving DecidableEq

inductive ConnectionFault
  | closed
  | driver (fault : DatabaseFault)
deriving DecidableEq

inductive Fault
  | database (fault : DatabaseFault)
  | connection (fault : ConnectionFault)
  | unsupportedType (name : String)
  | invalidIdentifier (name : String)
  | invalidJsonField (name : String)
  | unknownTable (name : String)
  | unknownColumn (table column : String)
  | invalidValue (column expected value : String)
  | unsupportedOperator (name : String)
  | emptyData
  | unscopedMutation
  | limitTooLarge (requested max : Nat)
  | invalidPageSize
  | exportPageLimit (pages : Nat)
  | exportCancelled
  /-- A call took longer than this many microseconds. -/
  | timeout (after : Nat)
  | other (message : String)
deriving DecidableEq

def DatabaseFault.message : DatabaseFault → String
  | .rowNotFound => "no rows returned by a query that expected to return at least one row"
  | .columnNotFound name => "no column found for name: " ++ name
  | .poolTimedOut => "pool timed out while waiting for an open connection"
  | .poolClosed => "attempted to acquire a connection on a closed pool"
  | .server _ message _ => "error returned from database: " ++ message
  | .decoding reason => "error occurred while decoding: " ++ reason
  | .configuration reason => "error with configuration: " ++ reason

def ConnectionFault.message : ConnectionFault → String
  | .closed => "Database has been closed"
  | .driver fault => "Sqlx error: " ++ fault.message

namespace Fault

def message : Fault → String
  | .database fault => fault.message
  | .connection fault => fault.message
  | .unsupportedType name => "unsupported datatype: " ++ name
  | .invalidIdentifier name =>
    "invalid identifier '" ++ name ++ "': must match [a-zA-Z_][a-zA-Z0-9_.]*"
  | .invalidJsonField name =>
    "invalid JSON field name '" ++ name ++ "': must be non-empty and free of NUL characters"
  | .unknownTable name => "unknown table: " ++ name
  | .unknownColumn table column => "unknown column '" ++ column ++ "' on table '" ++ table ++ "'"
  | .invalidValue column expected value =>
    "value " ++ value ++ " is not a valid " ++ expected ++ " for column '" ++ column ++ "'"
  | .unsupportedOperator name => "unsupported filter operator: " ++ name
  | .emptyData => "insert and update require at least one column"
  | .unscopedMutation => "update and delete require at least one filter"
  | .limitTooLarge requested max =>
    "limit " ++ Text.decimalText requested ++ " exceeds the maximum of " ++ Text.decimalText max
      ++ " rows"
  | .invalidPageSize => "page size must be greater than zero"
  | .exportPageLimit pages =>
    "export stopped after reaching the limit of " ++ Text.decimalText pages ++ " pages"
  | .exportCancelled => "export cancelled"
  | .timeout after => "query timed out after " ++ Text.decimalText (after / 1000) ++ "ms"
  | .other message => message

def code : Fault → String
  | .database (.server code _ _) => "PG_" ++ code
  | .database _ => "SQLX_ERROR"
  | .connection _ => "CONNECTION_ERROR"
  | .unsupportedType _ => "UNSUPPORTED_DATATYPE"
  | .invalidIdentifier _ => "INVALID_IDENTIFIER"
  | .invalidJsonField _ => "INVALID_JSON_FIELD"
  | .unknownTable _ => "UNKNOWN_TABLE"
  | .unknownColumn .. => "UNKNOWN_COLUMN"
  | .invalidValue .. => "INVALID_VALUE"
  | .unsupportedOperator _ => "UNSUPPORTED_OPERATOR"
  | .emptyData => "EMPTY_DATA"
  | .unscopedMutation => "UNSCOPED_MUTATION"
  | .limitTooLarge .. => "LIMIT_TOO_LARGE"
  | .invalidPageSize => "INVALID_PAGE_SIZE"
  | .exportPageLimit _ => "EXPORT_PAGE_LIMIT"
  | .exportCancelled => "EXPORT_CANCELLED"
  | .timeout _ => "TIMEOUT"
  | .other _ => "ERROR"

def detail : Fault → Option String
  | .database (.server _ _ detail) => detail
  | _ => none

end Fault

structure FaultReport where
  message : String
  code : Option String
  detail : Option String
deriving DecidableEq

def Fault.report (fault : Fault) : FaultReport :=
  ⟨fault.message, some fault.code, fault.detail⟩

/-- The answer of an operation: data, or the report of a fault, or neither when there was no row. -/
structure Response (α : Type) where
  data : Option α
  error : Option FaultReport

namespace Response

variable {α : Type}

def ok (data : α) : Response α := ⟨some data, none⟩

def failed (report : FaultReport) : Response α := ⟨none, some report⟩

def ofExcept : Except Fault α → Response α
  | .ok data => ok data
  | .error fault => failed fault.report

def ofOptional : Except Fault (Option α) → Response α
  | .ok data => ⟨data, none⟩
  | .error fault => failed fault.report

def isOk (response : Response α) : Bool := response.error.isNone

def toExcept (response : Response α) : Except FaultReport (Option α) :=
  match response.error with
  | some report => .error report
  | none => .ok response.data

end Response

end ScopedQuery
