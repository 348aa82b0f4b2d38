-- SUMMARY: Carrying out a command line with the help of a system that has files (`Command.perform`).
import Blockform.Command.Respond

/-!
# Carrying out a command line

A command reads one file and may write one. It does so through its surroundings, of
which it knows nothing else: the system that the program runs on, or anything that
answers in the same way.
-/

namespace Blockform.Command

/-- What a command asks of its surroundings: the filter for the log, if there is one,
    what a file holds, and that a file be written. -/
structure Surroundings (m : Type → Type) where
  logText : m (Option String)
  read (path : String) : m (Except FileError String)
  write (path content : String) : m (Except FileError Unit)

variable {m : Type → Type} [Monad m]

/-- Do what a response asks for. -/
def Response.perform (s : Surroundings m) : Response → m Report
  | .finish r => return r
  | .save path content after => return after (← s.write path content)

/-- Carry out a command line. -/
def perform (s : Surroundings m) (words : List String) : m Report := do
  match Invocation.ofWords words with
  | .error halt => return halt.report
  | .ok i =>
    let logText ← s.logText
    let content ← s.read i.file
    (i.respond logText content).perform s

end Blockform.Command
