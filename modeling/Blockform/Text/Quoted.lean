-- SUMMARY: The quoted form of a string, in which characters without a visible shape are written by their code, and the one-line form of records.
import Blockform.Text.Unseen

/-!
# Quoted text

Names, paths and string literals are shown to the reader between double quotes.
A quote, a backslash and the common controls get a backslash; a character that
would not be seen, or that would join the quote in front of it, is written by
its code in hexadecimal.

The second half writes a record on one line, with the names of its fields, as
the trace of the interpreter and the dumps of nodes show it.
-/

namespace Blockform

/-! ## Strings -/

/-- Lower-case hexadecimal digits without padding. -/
def hexDigits (n : Nat) : String := String.ofList (Nat.toDigits 16 n)

/-- A character between double quotes. -/
def quotedChar (c : Char) : String :=
  match c with
  | '"' => "\\\""
  | '\\' => "\\\\"
  | '\n' => "\\n"
  | '\r' => "\\r"
  | '\t' => "\\t"
  | '\x00' => "\\0"
  | c => if isUnseen c then "\\u\x7b" ++ hexDigits c.toNat ++ "\x7d" else c.toString

/-- The string between double quotes. -/
def quoted (s : String) : String :=
  "\"" ++ String.join (s.toList.map quotedChar) ++ "\""

/-! ## Records -/

/-- A record on one line; a record without fields is its bare name. -/
def recordText (name : String) (fields : List (String × String)) : String :=
  match fields with
  | [] => name
  | fields =>
    name ++ " \x7b " ++ ", ".intercalate (fields.map fun (f, v) => f ++ ": " ++ v) ++ " \x7d"

/-- A list on one line. -/
def listText (items : List String) : String := "[" ++ ", ".intercalate items ++ "]"

/-- A value that may be absent. -/
def optionText : Option String → String
  | none => "None"
  | some v => "Some(" ++ v ++ ")"

/-- A truth value. -/
def flagText (b : Bool) : String := if b then "true" else "false"

end Blockform
