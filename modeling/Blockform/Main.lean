-- SUMMARY: The command line program.
import Blockform.Command.Perform

/-!
# The program

Carries the command line out with the files of the system and prints what is
answered. What that is, is decided in `Blockform.Command`.
-/

namespace Blockform.Command

/-- The reason that the system gives. Its number comes with either sign. -/
def FileError.ofSystem : IO.Error → FileError
  | .noFileOrDirectory .. => .notFound
  | .inappropriateType _ code _ =>
    if min code (0 - code) = 21 then .isDirectory else .notDirectory
  | e => .other (toString e)

/-- What the file at a path holds. -/
def readFile (path : String) : IO (Except FileError String) := do
  try
    let bytes ← IO.FS.readBinFile path
    return (String.fromUTF8? bytes).elim (.error .notText) .ok
  catch e => return .error (.ofSystem e)

/-- Write a file. -/
def writeFile (path content : String) : IO (Except FileError Unit) := do
  try
    IO.FS.writeFile path content
    return .ok ()
  catch e => return .error (.ofSystem e)

/-- The system that the program runs on. -/
def system : Surroundings IO where
  logText := IO.getEnv "PYLL_LOG"
  read := readFile
  write := writeFile

end Blockform.Command

/-- The program. -/
def main (words : List String) : IO UInt32 := do
  let r ← Blockform.Command.perform Blockform.Command.system words
  IO.eprint r.stderr
  IO.print r.stdout
  return r.status.toUInt32
