-- SUMMARY: From a source to a verified program.
import Blockform.IR.Verify
import Blockform.Lowering.Stmt
import Blockform.Source

/-!
# Compilation

Read a tree, lower it and verify the program. The first of the three that fails
says why there is no program.
-/

namespace Blockform

/-- Compile a source, noting what is done. -/
def compileNoting (s : Source) (options : LowerOptions) :
    Except (Abort Diagnostic) (Node × Program) × Array Event :=
  match s.tree with
  | .error e => (.error (.error e.diagnostic), #[])
  | .ok tree =>
    let (lowered, log) := lowerNoting tree options
    let log := #[.treeDecoded tree.kind.title s.name] ++ log
    match lowered with
    | .error e => (.error (e.map LoweringError.diagnostic), log)
    | .ok program =>
      match program.verify with
      | .error e => (.error (.error e.diagnostic), log)
      | .ok () => (.ok (tree, program), log)

/-- Compile a source to a program that passes verification. -/
def compile (s : Source) (options : LowerOptions) : Except (Abort Diagnostic) Program :=
  (compileNoting s options).1.map Prod.snd

end Blockform
