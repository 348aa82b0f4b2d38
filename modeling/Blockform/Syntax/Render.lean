-- SUMMARY: A syntax tree as source text.
import Blockform.Syntax.Node

/-!
# Source text

A tree written back as the source it stands for. Every operation is put in
brackets, so no precedence is needed to read it; a statement in the place of an
expression shows as its kind in angle brackets.
-/

namespace Blockform

/-! ## Expressions -/

mutual

/-- A node in the place of an expression. -/
def Node.exprText : Node → String
  | ⟨kind, _, _⟩ => kind.exprText

/-- A kind in the place of an expression. -/
def Kind.exprText : Kind → String
  | .constant value => toString value
  | .str value => quoted value
  | .name id => id
  | .unaryOp op operand => "(" ++ op.symbol ++ operand.exprText ++ ")"
  | .binOp left op right => "(" ++ left.exprText ++ " " ++ op.symbol ++ " " ++ right.exprText ++ ")"
  | .boolOp op values => "(" ++ (" " ++ op.keyword ++ " ").intercalate (exprTexts values) ++ ")"
  | .compare left ops comparators => "(" ++ left.exprText ++ comparisonText ops comparators ++ ")"
  | .call func args keywords =>
    func.exprText ++ "(" ++ ", ".intercalate (exprTexts args ++ keywordTexts keywords) ++ ")"
  | .attribute value attr => value.exprText ++ "." ++ attr
  | kind => "<" ++ kind.title ++ ">"

/-- Each of a list of expressions. -/
def exprTexts : List Node → List String
  | [] => []
  | n :: rest => n.exprText :: exprTexts rest

/-- The part of a comparison behind its first operand. An operator or operand
    without a partner is dropped. -/
def comparisonText : List CompareOperator → List Node → String
  | op :: ops, n :: rest => " " ++ op.symbol ++ " " ++ n.exprText ++ comparisonText ops rest
  | _, _ => ""

/-- Each of a list of arguments passed by name. -/
def keywordTexts : List Keyword → List String
  | [] => []
  | ⟨some arg, value⟩ :: rest => (arg ++ "=" ++ value.exprText) :: keywordTexts rest
  | ⟨none, value⟩ :: rest => ("**" ++ value.exprText) :: keywordTexts rest

end

/-! ## Statements -/

/-- The blanks in front of a statement. -/
def indentation (level : Nat) : String := String.ofList (List.replicate (4 * level) ' ')

mutual

/-- A node in the place of a statement, with its line breaks. -/
def Node.stmtText (level : Nat) : Node → String
  | ⟨kind, _, _⟩ => kind.stmtText level

/-- A kind in the place of a statement. -/
def Kind.stmtText (level : Nat) : Kind → String
  | .module body => stmtsText level body
  | .functionDef name params body =>
    indentation level ++ "def " ++ name ++ "(" ++ ", ".intercalate params ++ "):\n" ++
      bodyText (level + 1) body
  | .assign targets value =>
    indentation level ++ String.join ((exprTexts targets).map (· ++ " = ")) ++ value.exprText ++
      "\n"
  | .augAssign target op value =>
    indentation level ++ target.exprText ++ " " ++ op.symbol ++ "= " ++ value.exprText ++ "\n"
  | .expr value => indentation level ++ value.exprText ++ "\n"
  | .ret (some value) => indentation level ++ "return " ++ value.exprText ++ "\n"
  | .ret none => indentation level ++ "return\n"
  | .ifElse test body orelse =>
    indentation level ++ "if " ++ test.exprText ++ ":\n" ++ bodyText (level + 1) body ++
      elseText level orelse
  | .whileLoop test body orelse =>
    indentation level ++ "while " ++ test.exprText ++ ":\n" ++ bodyText (level + 1) body ++
      elseText level orelse
  | .forLoop target iter body orelse =>
    indentation level ++ "for " ++ target.exprText ++ " in " ++ iter.exprText ++ ":\n" ++
      bodyText (level + 1) body ++ elseText level orelse
  | .pass => indentation level ++ "pass\n"
  | .breakLoop => indentation level ++ "break\n"
  | .continueLoop => indentation level ++ "continue\n"
  | kind => indentation level ++ kind.exprText ++ "\n"

/-- Statements one after the other. -/
def stmtsText (level : Nat) : List Node → String
  | [] => ""
  | n :: rest => n.stmtText level ++ stmtsText level rest

/-- The body of a construct: one that is empty shows the statement that does
    nothing. -/
def bodyText (level : Nat) : List Node → String
  | [] => indentation level ++ "pass\n"
  | n :: rest => n.stmtText level ++ stmtsText level rest

/-- The `else` clause of a construct, if there is one. -/
def elseText (level : Nat) : List Node → String
  | [] => ""
  | n :: rest =>
    indentation level ++ "else:\n" ++ n.stmtText (level + 1) ++ stmtsText (level + 1) rest

end

/-- The tree as source text: an expression alone, or statements with their line
    breaks. -/
def Node.render (n : Node) : String :=
  if n.kind.isExpression then n.exprText else n.stmtText 0

end Blockform
