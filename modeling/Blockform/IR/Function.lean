-- SUMMARY: Blocks, slots, signatures and functions of the IR.
import Blockform.IR.Op

/-!
# Functions

A function is a table of blocks, entered at the first one, and a table of slots:
the cells behind its variables. Without blocks it is only a declaration.
-/

namespace Blockform

/-- The type of a function: a number of integer parameters, and an integer
    result. -/
structure Signature where
  arity : Nat
deriving DecidableEq, Inhabited

/-- The signature in IR text. -/
def Signature.text (s : Signature) : String :=
  "i32 (" ++ ", ".intercalate (List.replicate s.arity "i32") ++ ")"

/-- A sequence of operations with one way in. A block that is being built has no
    terminator yet. -/
structure Block where
  label : String
  ops : List Op := []
  terminator : Option Terminator := none
deriving DecidableEq, Inhabited

namespace Block

/-- Has the block its terminator? Nothing may be added to it then. -/
def isTerminated (b : Block) : Bool := b.terminator.isSome

/-- The JSON form. -/
def toJson (b : Block) : Json :=
  .obj [("label", .str b.label), ("ops", .arr (b.ops.map Op.toJson)),
    ("terminator", (b.terminator.map Terminator.toJson).getD .null)]

end Block

/-- The cell of a variable. -/
structure Slot where
  name : String
deriving DecidableEq, Inhabited

/-- The JSON form. -/
def Slot.toJson (s : Slot) : Json := .obj [("name", .str s.name)]

/-- A function of a program. -/
structure Function where
  name : String
  signature : Signature
  params : List String := []
  blocks : List Block := []
  slots : List Slot := []
deriving DecidableEq, Inhabited

namespace Function

/-- A function without a body. -/
def declaration (name : String) (signature : Signature) : Function := { name, signature }

/-- Is there no body? -/
def isDeclaration (f : Function) : Bool := f.blocks.isEmpty

/-- The block that a call starts in. -/
def entry (f : Function) : Option BlockId := if f.isDeclaration then none else some ⟨0⟩

/-- The block of a number. -/
def block? (f : Function) (id : BlockId) : Option Block := f.blocks[id.val]?

/-- The slot of a number. -/
def slot? (f : Function) (id : SlotId) : Option Slot := f.slots[id.val]?

/-- The first block with a label. -/
def blockByLabel (f : Function) (label : String) : Option Block :=
  f.blocks.find? (·.label = label)

/-- All operations, in the order of the blocks. -/
def ops (f : Function) : List Op := f.blocks.flatMap Block.ops

/-- The number of operations and terminators. -/
def instructionCount (f : Function) : Nat := f.ops.length + f.blocks.countP Block.isTerminated

/-- The results that the function's operations define, in the order of the
    blocks. -/
def dests (f : Function) : List InstId := f.ops.filterMap Op.dest

/-- The JSON form. -/
def toJson (f : Function) : Json :=
  .obj [("name", .str f.name), ("signature", .obj [("arity", .int f.signature.arity)]),
    ("params", .arr (f.params.map .str)), ("blocks", .arr (f.blocks.map Block.toJson)),
    ("slots", .arr (f.slots.map Slot.toJson))]

end Function

end Blockform
