-- SUMMARY: A program: its functions, in the order they were first mentioned.
import Blockform.IR.Function
import Blockform.IR.NameTable

/-!
# Programs

A program is a registry of functions. A function is registered under its name
the first time it is mentioned, as a declaration, and keeps its number from then
on; a body is attached to it later. The numbers are found by name in a table that
is kept beside the functions.
-/

namespace Blockform

/-- Giving a function a body leaves the names of a vector alone. -/
theorem map_name_modify (fs : List Function) (i : Nat) (body : Function) :
    (fs.modify i fun f => { body with name := f.name }).map Function.name =
      fs.map Function.name := by
  refine List.ext_getElem (by simp) fun j _ _ => ?_
  by_cases heq : i = j <;> simp [heq]

/-- The functions of a program, by number, and the numbers of their names. The table
    always agrees with the functions. -/
structure Program where
  functions : List Function := []
  byName : NameTable FunctionId := .of FunctionId.mk (functions.map Function.name)
  indexed : byName = .of FunctionId.mk (functions.map Function.name) := by rfl
deriving DecidableEq

instance : Inhabited Program := ⟨{}⟩

namespace Program

/-- Programs differ in their functions only, as these determine the table. -/
@[ext] theorem ext {p q : Program} (h : p.functions = q.functions) : p = q := by
  obtain ⟨functions, byName, rfl⟩ := p
  obtain ⟨functions', byName', rfl⟩ := q
  cases h
  rfl

@[simp] theorem of_functions (p : Program) : { functions := p.functions } = p := ext rfl

/-- The number of functions. -/
def size (p : Program) : Nat := p.functions.length

/-- The function of a number. -/
def function? (p : Program) (id : FunctionId) : Option Function := p.functions[id.val]?

/-- The number of the function of a name. -/
def lookup (p : Program) (name : String) : Option FunctionId := p.byName.find? name

/-- The table has the number of the first function that bears the name. -/
theorem lookup_eq (p : Program) (name : String) :
    p.lookup name = (p.functions.findIdx? (·.name = name)).map FunctionId.mk := by
  rw [lookup, p.indexed, NameTable.find?_of, List.findIdx?_map]
  rfl

/-- A name is looked up among the functions that there are. -/
theorem lookup_lt {p : Program} {name : String} {id : FunctionId} (h : p.lookup name = some id) :
    id.val < p.size := by
  rw [lookup_eq] at h
  obtain ⟨i, hi, rfl⟩ := Option.map_eq_some_iff.mp h
  exact (List.findIdx?_eq_some_iff_getElem.mp hi).1

/-- The function of a name. -/
def functionNamed (p : Program) (name : String) : Option Function :=
  (p.lookup name).bind p.function?

/-- The program with one more function. -/
def register (p : Program) (f : Function) : Program where
  functions := p.functions ++ [f]
  byName := p.byName.add f.name ⟨p.size⟩
  indexed := by
    rw [p.indexed, List.map_append, List.map_singleton, NameTable.of_concat, List.length_map, size]

@[simp] theorem register_functions (p : Program) (f : Function) :
    (p.register f).functions = p.functions ++ [f] := rfl

/-- The number of the function of a name, which is declared with a signature if
    it is not registered yet. The signature of a registered one is not compared. -/
def declare (p : Program) (name : String) (signature : Signature) : FunctionId × Program :=
  match p.lookup name with
  | some id => (id, p)
  | none => (⟨p.size⟩, p.register (.declaration name signature))

/-- A program that declares each of some names, with one parameter each. -/
def withBuiltins (names : List String) : Program :=
  names.foldl (fun p name => (p.declare name ⟨1⟩).2) {}

/-- Attach a body to a registered function. The function keeps its name,
    whatever the body was built under. -/
def define (p : Program) (id : FunctionId) (body : Function) : Program where
  functions := p.functions.modify id.val fun f => { body with name := f.name }
  byName := p.byName
  indexed := by rw [p.indexed, map_name_modify]

/-- The JSON form. -/
def toJson (p : Program) : Json :=
  .obj [("functions", .arr (p.functions.map Function.toJson))]

end Program

end Blockform
