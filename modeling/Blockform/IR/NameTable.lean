-- SUMMARY: Tables that find the entries of a vector by their names (`NameTable`).

/-!
# Name tables

Functions, slots and parameters stand in vectors, by number. Beside such a vector
stands a table that finds an entry by its name. A name in the table keeps its entry:
of two parameters with one name, the first is found.
-/

namespace Blockform

/-- Entries by name, the oldest first. No name has two of them. -/
structure NameTable (α : Type) where
  entries : List (String × α) := []
deriving DecidableEq

namespace NameTable

variable {α : Type}

/-- The entry of a name. -/
def find? (t : NameTable α) (name : String) : Option α := t.entries.lookup name

/-- Give a name an entry, unless it has one. -/
def add (t : NameTable α) (name : String) (entry : α) : NameTable α :=
  match t.find? name with
  | some _ => t
  | none => ⟨t.entries ++ [(name, entry)]⟩

/-- The table of a vector with these names, where `mk` makes an entry of a number. -/
def of (mk : Nat → α) (names : List String) : NameTable α :=
  names.zipIdx.foldl (fun t (name, i) => t.add name (mk i)) {}

theorem of_concat (mk : Nat → α) (names : List String) (name : String) :
    of mk (names ++ [name]) = (of mk names).add name (mk names.length) := by
  simp [of, List.zipIdx_append]

theorem find?_add (t : NameTable α) (name : String) (entry : α) (asked : String) :
    (t.add name entry).find? asked =
      (t.find? asked).or (if name = asked then some entry else none) := by
  unfold add
  split
  · rename_i old hold
    split
    · rename_i heq
      rw [← heq, hold, Option.some_or]
    · rw [Option.or_none]
  · rw [find?, List.lookup_append]
    simp only [find?, List.lookup_cons, List.lookup_nil]
    by_cases heq : name = asked
    · simp [heq]
    · have hne : (asked == name) = false := by simpa using Ne.symm heq
      simp [heq, hne]

/-- Names that are added one by one are found where they stand, unless the table has
    had them before. -/
theorem find?_foldl (mk : Nat → α) (names : List String) (t : NameTable α) (start : Nat)
    (asked : String) :
    ((names.zipIdx start).foldl (fun t (name, i) => t.add name (mk i)) t).find? asked =
      (t.find? asked).or ((names.findIdx? (· = asked)).map fun i => mk (start + i)) := by
  induction names generalizing t start with
  | nil => simp
  | cons name names ih =>
    rw [List.zipIdx_cons, List.foldl_cons, ih, find?_add, List.findIdx?_cons, Option.or_assoc]
    congr 1
    by_cases heq : name = asked
    · simp [heq]
    · simp [heq, Function.comp_def, Nat.add_assoc, Nat.add_comm 1]

/-- The table finds what a search through the vector finds. -/
theorem find?_of (mk : Nat → α) (names : List String) (asked : String) :
    (of mk names).find? asked = (names.findIdx? (· = asked)).map mk := by
  rw [of, find?_foldl]
  simp [find?]

end NameTable

end Blockform
