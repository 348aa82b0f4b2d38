-- SUMMARY: The text a tree is read from, and why it gives no tree.
import Blockform.Diagnostic
import Blockform.Reader.Record

/-!
# Sources

A source is the JSON of a syntax tree, with a name that errors refer to. A text
that is blank is told apart from one that is malformed.
-/

namespace Blockform

/-- A named text. -/
structure Source where
  name : String
  path : String
  content : String
deriving DecidableEq

/-- Why a source gives no tree. -/
inductive SourceError where
  /-- The file cannot be read. -/
  | missing (path reason : String)
  /-- There is nothing but blanks. -/
  | empty (name : String)
  /-- The text is no tree. -/
  | malformed (name : String) (error : Reader.DecodeError)

/-- The error as it is reported. A malformed text is located in its file. -/
def SourceError.diagnostic (e : SourceError) : Diagnostic :=
  let message := match e with
    | .missing path reason => "Cannot read syntax tree at " ++ quoted path ++ ": " ++ reason
    | .empty name => "The syntax tree in '" ++ name ++ "' is empty."
    | .malformed _ error => "Malformed syntax tree: " ++ error.text
  let location := match e with
    | .malformed name error =>
      some ⟨name, error.place.line.toUInt64, error.place.column.toUInt64⟩
    | _ => none
  { message, issuer := "pyll.source", location }

namespace Source

/-- A text in memory. -/
def ofString (name content : String) : Source := ⟨name, name, content⟩

/-- Is there nothing but blanks? -/
def isEmpty (s : Source) : Bool := s.content.toList.all Charset.blank.contains

/-- The source as it is shown. -/
def text (s : Source) : String := "Source: " ++ s.name ++ " at " ++ quoted s.path

/-- Read the tree. -/
def tree (s : Source) : Except SourceError Node :=
  if s.isEmpty then .error (.empty s.name)
  else (Reader.decode .node s.content).mapError (.malformed s.name)

end Source

end Blockform
