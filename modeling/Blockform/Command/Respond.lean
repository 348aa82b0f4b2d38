-- SUMMARY: What the program answers to a command line and the file it names (`Invocation.respond`).
import Blockform.Command.Invocation
import Blockform.Command.LogFilter
import Blockform.Command.Table
import Blockform.Compile
import Blockform.IR.Print
import Blockform.Machine.Run
import Blockform.Syntax.Render

/-!
# Responses

Carrying out a command is a function of the command line, of the filter for the
log and of what the file holds. It gives the texts for the two outputs and the
exit status, either at once or, for a build that writes a file, once it is known
whether the file was written. The outer layer reads, writes and prints.

Nothing is printed to the standard output unless the command succeeds.
-/

namespace Blockform.Command

/-! ## Files -/

/-- Why a file cannot be read or written. -/
inductive FileError where
  | notFound
  | notDirectory
  | isDirectory
  | notText
  | other (reason : String)
deriving DecidableEq

/-- The reason, as it is shown. -/
def FileError.text : FileError → String
  | .notFound => "No such file or directory (os error 2)"
  | .notDirectory => "Not a directory (os error 20)"
  | .isDirectory => "Is a directory (os error 21)"
  | .notText => "stream did not contain valid UTF-8"
  | .other reason => reason

/-- The last component of a path. A path that ends in no name has none. -/
def baseName (path : String) : String :=
  let components := ((path.toList.splitOn '/').map String.ofList).filter fun c => c ≠ "" && c ≠ "."
  match components.getLast? with
  | some name => if name = ".." then "" else name
  | none => ""

/-- Behind the last slash of a path stands its name. -/
theorem baseName_append (directory : String) {name : String} (hslash : '/' ∉ name.toList)
    (hname : name ∉ ["", ".", ".."]) : baseName (directory ++ "/" ++ name) = name := by
  simp only [List.mem_cons, List.not_mem_nil, or_false, not_or] at hname
  obtain ⟨hempty, hhere, hup⟩ := hname
  have hjoin : (directory ++ "/" ++ name).toList = directory.toList ++ '/' :: name.toList := by
    simp
  unfold baseName
  rw [hjoin, List.splitOn_append_cons_self, List.splitOn_eq_singleton hslash]
  simp [hempty, hhere, hup]

/-! ## Reports -/

/-- What the program leaves when it ends. -/
structure Report where
  status : Nat := 0
  stdout : String := ""
  stderr : String := ""
deriving DecidableEq

/-- What the program does about a command line: end, or write a file first. -/
inductive Response where
  | finish (r : Report)
  | save (path content : String) (after : Except FileError Unit → Report)

/-- The error, as it is shown, with a line for its location. -/
def complaintText (d : Diagnostic) : String :=
  let label := match d.level with
    | .info => "info"
    | .warning => "warning"
    | .error => "error"
    | .critical => "internal error"
  let place := match d.location with
    | some l => "\n  --> " ++ l.text
    | none => ""
  label ++ "[" ++ d.issuer ++ "]: " ++ d.message ++ place ++ "\n"

/-- The end after an error. `noted` is what was logged before. -/
def Report.failure (noted : String) (e : Abort Diagnostic) : Report :=
  match e with
  | .error d => { status := 1, stderr := noted ++ complaintText d }
  | .outOfRange => { status := 101, stderr := noted }

/-- A short description of the command line. -/
def usage : String :=
  String.join (List.map (· ++ "\n")
    ["Usage: pyll [-v|-q] build|run|check FILE",
      "",
      "all commands:",
      "  --entry NAME       name of the function for the top-level statements",
      "  --no-auto-declare  refuse calls to functions that are not known yet",
      "  -v, --verbose      log more; up to three times",
      "  -q, --quiet        log errors only",
      "build:",
      "  -d, --dump ast|ir|json",
      "  -o, --output FILE",
      "  --stats            summarise each function",
      "run FILE [NUMBER...]:",
      "  -f, --function NAME",
      "  --max-steps N",
      "  --trace            log each operation"])

/-- The end for a command line that is not carried out. -/
def Halt.report : Halt → Report
  | .help => { stdout := usage }
  | .version => { stdout := "pyll 0.1.0\n" }
  | .misuse => { status := 2, stderr := usage }

/-! ## Commands -/

/-- The text of a stage. -/
def Dump.text (dump : Dump) (tree : Node) (p : Program) : Except Fault String :=
  match dump with
  | .ast => .ok tree.render
  | .ir => p.print
  | .json => .ok (p.toJson.pretty 0)

/-- A summary with a row for each function. -/
def summary (p : Program) : Table where
  header := ["function", "kind", "params", "blocks", "instructions", "slots"]
  rows := p.functions.map fun f =>
    ["@" ++ f.name, if f.isDeclaration then "declare" else "define", toString f.signature.arity,
      toString f.blocks.length, toString f.instructionCount, toString f.slots.length]

/-- Write a stage. -/
def build (f : LogFilter) (noted : String) (tree : Node) (p : Program)
    (dump : Dump) (output : Option String) (stats : Bool) : Response :=
  let table := if stats then (summary p).text ++ "\n" else ""
  match dump.text tree p, output with
  | .error fault, _ => .finish (.failure noted (@Abort.outOfRange _ fault))
  | .ok text, none => .finish { stdout := text ++ table, stderr := noted }
  | .ok text, some path => .save path text fun
    | .ok () =>
      { stdout := table, stderr := noted ++ f.text [.outputWritten dump.name path] }
    | .error e =>
      let message := "Cannot write " ++ quoted path ++ ": " ++ e.text
      .failure noted (.error { message, issuer := "pyll.cli" })

/-- Call a function. -/
def call (f : LogFilter) (noted : String) (p : Program) (name : String) (arguments : List Int32)
    (limits : ExecOptions) : Report :=
  let (result, log) := p.runNoting name arguments limits
  let noted := noted ++ f.text log.toList
  match result with
  | .error e => .failure noted (e.map ExecError.diagnostic)
  | .ok o =>
    let returned := "@" ++ name ++ " returned " ++ toString o.value ++ "\n"
    { stdout := String.join (o.output.map fun v => toString v ++ "\n")
      stderr := noted ++ returned ++ f.text [.callFinished name o.steps] }

/-- Say how many functions there are. -/
def count (noted : String) (p : Program) : Report :=
  let defined := p.functions.countP (!·.isDeclaration)
  { stdout := "ok: " ++ toString defined ++ " function(s) defined, " ++
      toString (p.size - defined) ++ " declared\n"
    stderr := noted }

namespace Invocation

/-- The file as a source, or why there is none. -/
def source (i : Invocation) (content : Except FileError String) : Except SourceError Source :=
  match content with
  | .ok content => .ok { name := baseName i.file, path := i.file, content }
  | .error e => .error (.missing i.file e.text)

/-- The tree in the file, noting that it was read. -/
def loadTree (i : Invocation) (content : Except FileError String) :
    Except SourceError Node × Array Event :=
  match i.source content with
  | .error e => (.error e, #[])
  | .ok source =>
    match source.tree with
    | .error e => (.error e, #[])
    | .ok tree => (.ok tree, #[.treeDecoded tree.kind.title source.name])

/-- The program of a tree, once it has passed verification, noting what is done. -/
def lowerAndVerify (i : Invocation) (tree : Node) :
    Except (Abort Diagnostic) Program × Array Event :=
  let (lowered, log) := lowerNoting tree i.options
  match lowered with
  | .error e => (.error (e.map LoweringError.diagnostic), log)
  | .ok p =>
    match p.verify with
    | .error e => (.error (.error e.diagnostic), log)
    | .ok () => (.ok p, log)

/-- Do what the invocation asks for with its tree and its program. -/
def carryOut (i : Invocation) (f : LogFilter) (noted : String) (tree : Node) (p : Program) :
    Response :=
  match i.task with
  | .build dump output stats => build f noted tree p dump output stats
  | .run function arguments limits =>
    .finish (call f noted p (function.getD i.options.entryName) arguments limits)
  | .check => .finish (count noted p)

/-- Carry out the invocation on what its file holds. -/
def respond (i : Invocation) (logText : Option String) (content : Except FileError String) :
    Response :=
  let (f, complaints) := LogFilter.start logText i.level
  match i.loadTree content with
  | (.error e, log) => .finish (.failure (complaints ++ f.text log.toList) (.error e.diagnostic))
  | (.ok tree, log) =>
    let (prepared, log') := i.lowerAndVerify tree
    let noted := complaints ++ f.text (log ++ log').toList
    match prepared with
    | .error e => .finish (.failure noted e)
    | .ok p => i.carryOut f noted tree p

end Invocation

end Blockform.Command
