import Mathlib.Data.List.Basic

/-!
# Documents

What a request or an answer in JSON is for the sources, once it is read, and the errors of
requests.
-/

namespace FtyRest.Ecpp

/-- A document, as `cxxtools::SerializationInfo` holds it. -/
inductive Json where
  | null
  | str (text : String)
  | int (value : Int)
  | array (items : List Json)
  | object (members : List (String × Json))
deriving Repr

namespace Json

/-- `getValue` for a text; a document holds each scalar other than a number by this text. -/
def getValue : Json → String
  | .str text => text
  | .int value => toString value
  | _ => ""

/-- What a loop over a document visits: the items of an array have no name. -/
def members : Json → List (String × Json)
  | .object members => members
  | .array items => items.map fun item ↦ ("", item)
  | _ => []

/-- `findMember` and `getMember`: the first member of the name. -/
def getMember (doc : Json) (name : String) : Option Json := doc.members.lookup name

end Json

/-- The error of a request with its arguments. -/
structure HttpDie where
  error : String
  args : List String
deriving DecidableEq, Repr

def internalError (err : String) : HttpDie := ⟨"internal-error", [err]⟩

end FtyRest.Ecpp
