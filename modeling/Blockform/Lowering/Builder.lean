-- SUMMARY: A function under construction (`Builder`) and the operations that build it (`Build`).
import Blockform.IR.Program
import Blockform.Lowering.Error

/-!
# Building functions

A `Builder` holds the blocks and slots of a function under construction and a
cursor: the block that instructions go to. Every instruction that lowering
produces goes through `Build.emit` or `Build.terminate`, which refuse a block
that has its terminator.

The cursor may be put on any number. What follows it to a block that does not
exist ends with `Abort.noEntry`.
-/

namespace Blockform

/-- A function under construction. `labels` are those that blocks were asked for
    with, the last first; `nextInst` is the number of the next result. The tables
    always agree with the parameters and the slots that they find by name. -/
structure Builder where
  name : String
  params : List String
  paramValues : NameTable Value := .of .param params
  blocks : List Block := []
  slots : List Slot := []
  slotTable : NameTable SlotId := .of SlotId.mk (slots.map Slot.name)
  labels : List String := []
  cursor : BlockId := ⟨0⟩
  nextInst : Nat := 0
  bound : paramValues = .of .param params := by rfl
  indexed : slotTable = .of SlotId.mk (slots.map Slot.name) := by rfl
deriving DecidableEq

instance : Inhabited Builder := ⟨{ name := "", params := [] }⟩

namespace Builder

/-- The label that a new block gets: the one asked for, with a number behind it
    if a block was asked for with the same label before. -/
def freshLabel (b : Builder) (label : String) : String :=
  match b.labels.count label with
  | 0 => label
  | uses => label ++ "." ++ toString uses

/-- Add an empty block. The cursor stays. -/
def addBlock (b : Builder) (label : String) : Builder :=
  { b with blocks := b.blocks ++ [{ label := b.freshLabel label }], labels := label :: b.labels }

/-- A function whose entry block has been created, with the cursor on it. -/
def start (name : String) (params : List String) : Builder :=
  Builder.addBlock { name, params } "entry"

/-- The signature of the function. -/
def signature (b : Builder) : Signature := ⟨b.params.length⟩

/-- The block of a number. -/
def block? (b : Builder) (id : BlockId) : Option Block := b.blocks[id.val]?

/-- The block under the cursor. -/
def current? (b : Builder) : Option Block := b.block? b.cursor

/-- The argument that a parameter stands for. -/
def param? (b : Builder) (name : String) : Option Value := b.paramValues.find? name

/-- A name stands for the first parameter that bears it. -/
theorem param?_eq (b : Builder) (name : String) :
    b.param? name = (b.params.findIdx? (· = name)).map .param := by
  rw [param?, b.bound, NameTable.find?_of]

theorem param?_lt {b : Builder} {name : String} {v : Value} (h : b.param? name = some v) :
    ∃ i < b.params.length, v = .param i := by
  rw [param?_eq] at h
  obtain ⟨i, hi, rfl⟩ := Option.map_eq_some_iff.mp h
  exact ⟨i, (List.findIdx?_eq_some_iff_getElem.mp hi).1, rfl⟩

/-- The slot of a variable. -/
def slot? (b : Builder) (name : String) : Option SlotId := b.slotTable.find? name

/-- A variable has the first slot that bears its name. -/
theorem slot?_eq (b : Builder) (name : String) :
    b.slot? name = (b.slots.findIdx? (·.name = name)).map SlotId.mk := by
  rw [slot?, b.indexed, NameTable.find?_of, List.findIdx?_map]
  rfl

theorem slot?_lt {b : Builder} {name : String} {slot : SlotId} (h : b.slot? name = some slot) :
    slot.val < b.slots.length := by
  rw [slot?_eq] at h
  obtain ⟨i, hi, rfl⟩ := Option.map_eq_some_iff.mp h
  exact (List.findIdx?_eq_some_iff_getElem.mp hi).1

/-- Add a slot for a variable. -/
def addSlot (b : Builder) (slot : Slot) : Builder :=
  { b with
    slots := b.slots ++ [slot]
    slotTable := b.slotTable.add slot.name ⟨b.slots.length⟩
    indexed := by
      rw [b.indexed, List.map_append, List.map_singleton, NameTable.of_concat, List.length_map] }

@[simp] theorem addSlot_slots (b : Builder) (slot : Slot) :
    (b.addSlot slot).slots = b.slots ++ [slot] := rfl

@[simp] theorem addSlot_blocks (b : Builder) (slot : Slot) : (b.addSlot slot).blocks = b.blocks := rfl

@[simp] theorem addSlot_params (b : Builder) (slot : Slot) : (b.addSlot slot).params = b.params := rfl

theorem slot?_addSlot (b : Builder) (slot : Slot) (name : String) :
    (b.addSlot slot).slot? name =
      (b.slot? name).or (if slot.name = name then some ⟨b.slots.length⟩ else none) :=
  NameTable.find?_add ..

/-- The slot of a variable, which is created if there is none. -/
def ensureSlot (b : Builder) (name : String) : SlotId × Builder :=
  match b.slot? name with
  | some slot => (slot, b)
  | none => (⟨b.slots.length⟩, b.addSlot ⟨name⟩)

/-- Add an operation to the block under the cursor. -/
def push (b : Builder) (op : Op) : Builder :=
  { b with blocks := b.blocks.modify b.cursor.val fun k => { k with ops := k.ops ++ [op] } }

/-- End the block under the cursor. -/
def close (b : Builder) (t : Terminator) : Builder :=
  { b with blocks := b.blocks.modify b.cursor.val fun k => { k with terminator := some t } }

/-- The finished function. -/
def finish (b : Builder) : Function where
  name := b.name
  signature := b.signature
  params := b.params
  blocks := b.blocks
  slots := b.slots

end Builder

/-! ## Building -/

/-- A step of building. What it has changed stays when it fails. -/
abbrev Build := EStateM (Abort LoweringError) Builder

namespace Build

/-- Add an empty block. The cursor stays. -/
def newBlock (label : String) : Build BlockId :=
  modifyGet fun b => (⟨b.blocks.length⟩, b.addBlock label)

/-- Put the cursor on a block. -/
def moveTo (block : BlockId) : Build Unit := modify fun b => { b with cursor := block }

/-- The block under the cursor. -/
def current : Build Block := do
  match (← get).current? with
  | some k => pure k
  | none => throw .noEntry

/-- Has the block under the cursor its terminator? -/
def isTerminated : Build Bool := return (← current).isTerminated

/-- Change the block under the cursor, which must be open. -/
def whenOpen (change : Builder → Builder) : Build Unit := do
  let k ← current
  if k.isTerminated then throw (.error (.closed k.label (← get).name))
  modify change

/-- Add an operation to the block under the cursor. -/
def emit (op : Op) : Build Unit := whenOpen (·.push op)

/-- End the block under the cursor. -/
def terminate (t : Terminator) : Build Unit := whenOpen (·.close t)

/-- The number of the next result. It is used up even if the operation that
    wanted it fails. -/
def fresh : Build InstId := modifyGet fun b => (⟨b.nextInst⟩, { b with nextInst := b.nextInst + 1 })

/-- Add an operation that defines a fresh result of a type. -/
def define (ty : Ty) (op : InstId → Op) : Build Value := do
  let dest ← fresh
  emit (op dest)
  return .inst dest ty

def load (slot : SlotId) : Build Value := define .i32 fun dest => .load dest slot

/-- An operation on two values of one type, which is that of the first. -/
def binary (op : BinaryOp) (lhs rhs : Value) : Build Value :=
  define lhs.ty fun dest => .binary dest op lhs.ty lhs rhs

def neg (operand : Value) : Build Value := define .i32 fun dest => .neg dest operand

def icmp (pred : Predicate) (lhs rhs : Value) : Build Value :=
  define .i1 fun dest => .icmp dest pred lhs rhs

def call (callee : FunctionId) (args : List Value) : Build Value :=
  define .i32 fun dest => .call dest callee args

/-- Widen a truth value to an integer. An integer stays as it is. -/
def toInt (value : Value) : Build Value :=
  match value.ty with
  | .i32 => pure value
  | .i1 => define .i32 fun dest => .zext dest value

/-- The truth value of an integer: it differs from zero. A truth value stays as
    it is. -/
def toBool (value : Value) : Build Value :=
  match value.ty with
  | .i1 => pure value
  | .i32 => icmp .ne (.int 0) value

/-- Read a variable. A parameter is never hidden by a variable, so one that has
    been written still reads as the argument. -/
def read (name : String) : Build Value := do
  let b ← get
  match b.param? name with
  | some v => pure v
  | none =>
    match b.slot? name with
    | some slot => load slot
    | none => throw (.error (.unbound name b.name))

/-- Write a variable, whose slot is created by the first write. -/
def write (name : String) (value : Value) : Build Unit := do
  let value ← toInt value
  let slot ← modifyGet fun b => b.ensureSlot name
  emit (.store value slot)

def ret (value : Value) : Build Unit := do
  let value ← toInt value
  terminate (.ret value)

def br (target : BlockId) : Build Unit := terminate (.br target)

def condBr (cond : Value) (thenBlock elseBlock : BlockId) : Build Unit :=
  terminate (.condBr cond thenBlock elseBlock)

end Build

end Blockform
