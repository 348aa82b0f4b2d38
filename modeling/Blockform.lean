import Blockform.Main
import Blockform.Proofs.Activations
import Blockform.Proofs.PlainTree
import Blockform.Proofs.Preservation
import Blockform.Proofs.Reading
import Blockform.Proofs.Reordering
import Blockform.Proofs.Rereading
import Blockform.Proofs.Sessions
import Blockform.Proofs.Truth
import Blockform.Syntax.Json
import Blockform.Syntax.Record
import Blockform.Proofs.Predecessors
import Blockform.Proofs.Refusals
import Blockform.Proofs.Mentions
import Blockform.Proofs.Positions
import Blockform.Proofs.Undeclared
import Blockform.Proofs.Arithmetic
import Blockform.Proofs.FreshLabels
import Blockform.Proofs.Failures
import Blockform.Proofs.LocalNames
import Blockform.Proofs.Commands
import Blockform.Proofs.Unambiguous
import Blockform.Proofs.Verbosity
import Blockform.Proofs.ResultNumbers
import Blockform.Proofs.Confinement
