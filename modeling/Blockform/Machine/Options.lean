-- SUMMARY: The limits of a run.
import Blockform.Json
import Blockform.Text.Quoted

/-!
# Run options
-/

namespace Blockform

/-- Limits of a run: how many instructions are executed before it is given up,
    and how many function bodies may be active at once. With `trace`, every
    operation is noted in the log. -/
structure ExecOptions where
  maxSteps : UInt64 := 1000000
  maxDepth : UInt64 := 256
  trace : Bool := false
deriving DecidableEq, Inhabited

namespace ExecOptions

/-- The record form. -/
def recordForm (o : ExecOptions) : String :=
  recordText "ExecOptions"
    [("max_steps", toString o.maxSteps), ("max_depth", toString o.maxDepth),
      ("trace", flagText o.trace)]

/-- The JSON form. -/
def toJson (o : ExecOptions) : Json :=
  .obj [("max_steps", .int o.maxSteps.toNat), ("max_depth", .int o.maxDepth.toNat),
    ("trace", .bool o.trace)]

end ExecOptions

end Blockform
