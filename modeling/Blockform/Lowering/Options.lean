-- SUMMARY: What a caller may choose about lowering.
import Blockform.Json
import Blockform.Text.Quoted

/-!
# Lowering options
-/

namespace Blockform

/-- The name of the console output function, the one builtin that can be run. -/
def printName : String := "print"

/-- Choices of a lowering. `entryName` names the function that receives the
    top-level statements. A call to a function that has not been mentioned yet
    declares it if `autoDeclareCallees` is set, and is an error otherwise.
    `builtins` are declared before anything else, each with one parameter. -/
structure LowerOptions where
  entryName : String := "main"
  autoDeclareCallees : Bool := true
  builtins : List String := [printName]
deriving DecidableEq, Inhabited

namespace LowerOptions

/-- The record form. -/
def recordForm (o : LowerOptions) : String :=
  recordText "LowerOptions"
    [("entry_name", quoted o.entryName), ("auto_declare_callees", flagText o.autoDeclareCallees),
      ("builtins", listText (o.builtins.map quoted))]

/-- The JSON form. -/
def toJson (o : LowerOptions) : Json :=
  .obj [("entry_name", .str o.entryName), ("auto_declare_callees", .bool o.autoDeclareCallees),
    ("builtins", .arr (o.builtins.map .str))]

end LowerOptions

end Blockform
