import Mathlib.Data.List.Basic

/-!
# Types of the database library

The answers and the constants of the database library that the sources work with.
-/

namespace FtyRest.Db

/-- Error types and subtypes. -/
inductive ErrNo where
  | none
  | dbErr
  | unknown
  | internal
  | notFound
  | badInput
  | deleteFail
  | code (n : Int)
deriving DecidableEq, Repr

/-- `db_reply_t`: status `0` is a failure. -/
structure DbReply where
  status : Nat := 1
  errtype : ErrNo := .none
  errsubtype : ErrNo := .none
  affectedRows : Nat := 0
  rowid : Nat := 0
  msg : String := ""
deriving DecidableEq, Repr

namespace AssetType

def group : Nat := 1
def datacenter : Nat := 2
def room : Nat := 3
def row : Nat := 4
def rack : Nat := 5
def device : Nat := 6

end AssetType

/-- The name of the default rack controller. -/
def rc0Iname : String := "rackcontroller-0"

end FtyRest.Db
