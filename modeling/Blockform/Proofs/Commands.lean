-- SUMMARY: A command does what the library does, and fails without a trace (`perform_agrees`).
import Blockform.Command.Perform
import Blockform.Proofs.CommandLines
import Blockform.Proofs.Counting
import Blockform.Proofs.Positions
import Blockform.Proofs.Safety
import Blockform.Proofs.Stepping
import Blockform.Proofs.WellFormed

/-!
# Commands

A command prepares its program in steps of its own: it reads the file, loads the tree,
lowers it and verifies. It comes to what the library makes of the same text
(`Invocation.respond_eq`), and to the same error where there is no program
(`perform_agrees`).

What is seen of a command are its outputs and its files (`Files`). Both are left until
nothing can fail any more: the text of a program is put together as a whole, a run keeps
what it prints until it has returned, and a file is written before anything is printed.
Hence a command that fails leaves no trace but its report (`Clean`). It fails with an
error that it reports, unless it has to count further than a word can
(`Invocation.Overruns`).
-/

namespace Blockform

/-! ## Errors of the library -/

/-- A tree that is not lowered is refused: no lowering follows a number out of a table. -/
theorem lower_eq_error {tree : Node} {options : LowerOptions} {e : Abort LoweringError}
    (h : lower tree options = .error e) : ∃ error, e = .error error := by
  cases hkind : tree.kind with
  | module body =>
    obtain ⟨error, -, rfl⟩ := lower_module_eq_error hkind h
    exact ⟨error, rfl⟩
  | _ =>
    simp only [lower, lowerNoting, hkind] at h
    cases h
    exact ⟨_, rfl⟩

namespace Command

variable {σ : Type}

/-! ## Files -/

/-- Files that are read and written by their paths. A write that fails leaves no files, so
    that the old ones stay. -/
structure Files (σ : Type) where
  read (files : σ) (path : String) : Except FileError String
  write (files : σ) (path content : String) : Except FileError σ

/-- The surroundings that are made of files and a filter for the log. -/
def Files.surroundings (fs : Files σ) (logText : Option String) : Surroundings (StateM σ) where
  logText files := (logText, files)
  read path files := (fs.read files path, files)
  write path content files :=
    match fs.write files path content with
    | .ok files' => (.ok (), files')
    | .error e => (.error e, files)

section
variable {fs : Files σ} {files : σ} {logText : Option String} {path content : String}
  {after : Except FileError Unit → Report}

theorem Response.perform_save :
    (Response.save path content after).perform (fs.surroundings logText) files =
      match fs.write files path content with
      | .ok files' => (after (.ok ()), files')
      | .error e => (after (.error e), files) := by
  change (after ((fs.surroundings logText).write path content files).1,
    ((fs.surroundings logText).write path content files).2) = _
  dsimp only [Files.surroundings]
  cases fs.write files path content <;> rfl

end

/-! ## The library -/

/-- What the library makes of a file, noting what it does. -/
def compileFile (file : String) (content : Except FileError String) (options : LowerOptions) :
    Except (Abort Diagnostic) (Node × Program) × Array Event :=
  match content with
  | .ok content => compileNoting { name := baseName file, path := file, content } options
  | .error e => (.error (.error (SourceError.missing file e.text).diagnostic), #[])

section
variable {file : String} {content : Except FileError String} {options : LowerOptions}

theorem compileNoting_lowered {source : Source} {tree : Node} {p : Program}
    (h : (compileNoting source options).1 = .ok (tree, p)) : lower tree options = .ok p := by
  unfold compileNoting at h
  split at h
  · cases h
  · split at h
    rename_i lowered log hlower
    split at h
    · cases h
    · split at h
      · cases h
      · cases h
        exact congrArg Prod.fst hlower

theorem compileFile_lowered {tree : Node} {p : Program}
    (h : (compileFile file content options).1 = .ok (tree, p)) : lower tree options = .ok p := by
  cases content with
  | error e => cases h
  | ok content => exact compileNoting_lowered h

theorem compileFile_eq_error {e : Abort Diagnostic}
    (h : (compileFile file content options).1 = .error e) : ∃ d, e = .error d := by
  cases content with
  | error e' =>
    cases h
    exact ⟨_, rfl⟩
  | ok content =>
    rcases compile_error h with ⟨e', -, rfl⟩ | ⟨tree, e', -, hlower, rfl⟩
    · exact ⟨_, rfl⟩
    · obtain ⟨error, rfl⟩ := lower_eq_error hlower
      exact ⟨_, rfl⟩

/-- The library has a program for the file if the file is read and compiled. -/
theorem compileFile_isOk :
    (∃ tree p, (compileFile file content options).1 = .ok (tree, p)) ↔
      ∃ text p, content = .ok text ∧
        compile { name := baseName file, path := file, content := text } options = .ok p := by
  cases content with
  | error e => simp [compileFile]
  | ok text =>
    simp only [compileFile, compile, Except.ok.injEq, exists_and_left, exists_eq_left']
    cases (compileNoting { name := baseName file, path := file, content := text } options).1 with
    | error e => simp [Except.map]
    | ok prepared => simp [Except.map, Prod.ext_iff]

end

/-! ## Preparation -/

namespace Invocation

variable {i : Invocation} {logText : Option String}

/-- What stands in the log after some events: the complaints about the filter, and the
    lines for the events that pass it. -/
def logged (i : Invocation) (logText : Option String) (events : Array Event) : String :=
  let (filter, complaints) := LogFilter.start logText i.level
  complaints ++ filter.text events.toList

/-- A command loads, lowers and verifies by itself, and comes to what the library does. -/
theorem respond_eq (content : Except FileError String) :
    i.respond logText content =
      let (compiled, log) := compileFile i.file content i.options
      match compiled with
      | .error e => .finish (.failure (i.logged logText log) e)
      | .ok (tree, p) =>
        i.carryOut (LogFilter.start logText i.level).1 (i.logged logText log) tree p := by
  cases content with
  | error e => rfl
  | ok content =>
    simp only [respond, loadTree, source, compileFile, compileNoting]
    cases Source.tree { name := baseName i.file, path := i.file, content } with
    | error e => rfl
    | ok tree =>
      simp only [lowerAndVerify]
      cases (lowerNoting tree i.options).1 with
      | error e => rfl
      | ok p =>
        dsimp only
        cases p.verify <;> rfl

end Invocation

/-! ## Ends -/

/-- The task counts what a word may be too small for: the steps of a run with the largest
    limit that there is, or the results of a function in the text of the program. -/
def Invocation.Overruns (i : Invocation) (p : Program) : Prop :=
  match i.task with
  | .build dump _ _ => dump = .ir ∧ ∃ f ∈ p.functions, UInt64.size < 2 * f.dests.length
  | .run _ _ limits => limits.maxSteps.toNat + 1 = UInt64.size
  | .check => False

/-- A command ends cleanly: it succeeds, or it fails with nothing on the standard output and
    the files as they were. Short of an overrun, it reports an error then. -/
inductive Clean (overruns : Prop) (files : σ) : Report × σ → Prop where
  | succeeded {stdout stderr : String} {files' : σ} :
    Clean overruns files ({ stdout, stderr }, files')
  | failed {stderr : String} : Clean overruns files ({ status := 1, stderr }, files)
  | overrun {stderr : String} (h : overruns) :
    Clean overruns files ({ status := 101, stderr }, files)

section
variable {overruns : Prop} {files : σ} {outcome : Report × σ}

theorem Clean.status (h : Clean overruns files outcome) :
    outcome.1.status ≤ 1 ∨ outcome.1.status = 101 ∧ overruns := by
  cases h with
  | succeeded => exact .inl (Nat.zero_le 1)
  | failed => exact .inl (Nat.le_refl 1)
  | overrun h => exact .inr ⟨rfl, h⟩

theorem Clean.traceless (h : Clean overruns files outcome) (hstatus : outcome.1.status ≠ 0) :
    outcome.1.stdout = "" ∧ outcome.2 = files := by
  cases h with
  | succeeded => exact absurd rfl hstatus
  | failed | overrun => exact ⟨rfl, rfl⟩

end

section
variable {fs : Files σ} {files : σ} {logText : Option String} {f : LogFilter} {noted : String}
  {tree : Node} {options : LowerOptions} {p : Program}

theorem Dump.text_settled (hp : lower tree options = .ok p) (dump : Dump) (source : Node) :
    Printer.Settled (¬ (dump = .ir ∧ ∃ f ∈ p.functions, UInt64.size < 2 * f.dests.length))
      (dump.text source p) := by
  cases dump with
  | ast | json => exact .ok _
  | ir =>
    refine (Program.print_settled (lower_verify hp)).mono fun hroom f hf => ?_
    exact lower_countable hp hf (Nat.le_of_not_lt fun hmany => hroom ⟨rfl, f, hf, hmany⟩)

/-- What a build prints is printed when nothing can go wrong any more: the stage has a text,
    and if it goes to a file, the file is written first. -/
theorem build_clean (hp : lower tree options = .ok p) (dump : Dump) (output : Option String)
    (stats : Bool) (source : Node) :
    Clean (dump = .ir ∧ ∃ f ∈ p.functions, UInt64.size < 2 * f.dests.length) files
      ((build f noted source p dump output stats).perform (fs.surroundings logText) files) := by
  have hsettled := dump.text_settled hp source
  unfold build
  cases htext : dump.text source p with
  | error fault =>
    rw [htext] at hsettled
    cases hsettled with
    | overflow hmany => exact .overrun (not_not.mp hmany)
  | ok text =>
    cases output with
    | none => exact .succeeded
    | some path =>
      dsimp only
      rw [Response.perform_save]
      cases fs.write files path text with
      | ok files' => exact .succeeded
      | error e => exact .failed

theorem call_clean (hp : p.verify = .ok ()) (name : String) (arguments : List Int32)
    (limits : ExecOptions) :
    Clean (limits.maxSteps.toNat + 1 = UInt64.size) files
      (call f noted p name arguments limits, files) := by
  unfold call
  rcases hcall : p.runNoting name arguments limits with ⟨result, log⟩
  have hrun : p.run name arguments limits = result := congrArg Prod.fst hcall
  cases result with
  | ok o => exact .succeeded
  | error e =>
    have hexcused : e.Excused := Program.run_sound hp hrun
    cases e with
    | error e => exact .failed
    | @outOfRange fault =>
      cases fault with
      | noEntry => exact hexcused.elim
      | overflow => exact .overrun (Program.overflow_of_run hrun)

theorem carryOut_check {i : Invocation} (h : i.task.verb = .check) :
    i.carryOut f noted tree p = .finish (count noted p) := by
  unfold Invocation.carryOut
  cases htask : i.task with
  | check => rfl
  | build | run => simp [htask, Task.verb] at h

theorem carryOut_clean (hp : lower tree options = .ok p) (i : Invocation) (source : Node) :
    Clean (i.Overruns p) files
      ((i.carryOut f noted source p).perform (fs.surroundings logText) files) := by
  unfold Invocation.carryOut Invocation.Overruns
  cases i.task with
  | build dump output stats => exact build_clean hp dump output stats source
  | run function arguments limits => exact call_clean (lower_verify hp) _ arguments limits
  | check => exact .succeeded

end

/-! ## Command lines -/

section
variable {fs : Files σ} {files : σ} {logText : Option String} {words : List String}
  {i : Invocation} {tree : Node} {p : Program}

theorem perform_eq (h : Invocation.ofWords words = .ok i) :
    perform (fs.surroundings logText) words files =
      (i.respond logText (fs.read files i.file)).perform (fs.surroundings logText) files := by
  unfold perform
  rw [h]
  rfl

theorem perform_of_compiled (h : Invocation.ofWords words = .ok i)
    (hcompiled : (compileFile i.file (fs.read files i.file) i.options).1 = .ok (tree, p)) :
    perform (fs.surroundings logText) words files =
      (i.carryOut (LogFilter.start logText i.level).1
        (i.logged logText (compileFile i.file (fs.read files i.file) i.options).2)
        tree p).perform (fs.surroundings logText) files := by
  rw [perform_eq h, Invocation.respond_eq]
  simp only [hcompiled]

theorem perform_of_uncompiled {e : Abort Diagnostic} (h : Invocation.ofWords words = .ok i)
    (hcompiled : (compileFile i.file (fs.read files i.file) i.options).1 = .error e) :
    perform (fs.surroundings logText) words files =
      (.failure (i.logged logText (compileFile i.file (fs.read files i.file) i.options).2) e,
        files) := by
  rw [perform_eq h, Invocation.respond_eq]
  simp only [hcompiled]
  rfl

end

/-- A command does what the library does with the file that it names and with the options
    that its words denote. Where the library has a program, the task is carried out on that
    program. Where it has an error, every command ends with that error. So `check` succeeds
    exactly if the file is read and compiled. A command that fails, then or later, prints
    nothing to the standard output and leaves the files as they were. It fails with an error,
    unless it has a program with which it counts further than a word can. -/
theorem perform_agrees {words : List String} {i : Invocation}
    (h : Invocation.ofWords words = .ok i) (fs : Files σ) (logText : Option String) (files : σ) :
    let options := optionsOf (behindVerb words)
    let compiled := compileFile i.file (fs.read files i.file) options
    let noted := i.logged logText compiled.2
    let outcome := perform (fs.surroundings logText) words files
    (∀ tree p, compiled.1 = .ok (tree, p) →
      outcome = (i.carryOut (LogFilter.start logText i.level).1 noted tree p).perform
        (fs.surroundings logText) files) ∧
    (∀ e, compiled.1 = .error e → ∃ d, e = .error d ∧
      outcome = ({ status := 1, stdout := "", stderr := noted ++ complaintText d }, files)) ∧
    (words.findSome? Verb.ofName? = some .check →
      (outcome.1.status = 0 ↔ ∃ text p, fs.read files i.file = .ok text ∧
        compile { name := baseName i.file, path := i.file, content := text } options = .ok p)) ∧
    (outcome.1.status ≤ 1 ∨
      outcome.1.status = 101 ∧ ∃ tree p, compiled.1 = .ok (tree, p) ∧ i.Overruns p) ∧
    (outcome.1.status ≠ 0 → outcome.1.stdout = "" ∧ outcome.2 = files) := by
  obtain ⟨hverb, hoptions⟩ := Invocation.ofWords_eq_ok h
  rw [hverb, ← hoptions]
  intro options compiled noted outcome
  have hprogram : (∃ tree p, compiled.1 = .ok (tree, p)) ↔ _ := compileFile_isOk
  cases hcompiled : compiled.1 with
  | error e =>
    obtain ⟨d, rfl⟩ := compileFile_eq_error hcompiled
    have houtcome : outcome = (.failure noted (.error d), files) :=
      perform_of_uncompiled h hcompiled
    refine ⟨by simp, fun e he => ⟨d, (Except.error.inj he).symm, houtcome⟩, fun _ => ?_, ?_⟩
    · rw [← hprogram, hcompiled]
      simp [houtcome, Report.failure]
    · simp [houtcome, Report.failure]
  | ok prepared =>
    obtain ⟨tree, p⟩ := prepared
    have houtcome : outcome = _ := perform_of_compiled h hcompiled
    have hclean : Clean (i.Overruns p) files outcome :=
      houtcome ▸ carryOut_clean (compileFile_lowered hcompiled) i tree
    refine ⟨fun tree' p' hp => ?_, by simp, fun hcheck => ?_,
      hclean.status.imp_right fun ⟨hstatus, hmany⟩ => ⟨hstatus, tree, p, rfl, hmany⟩,
      hclean.traceless⟩
    · cases hp
      exact houtcome
    · refine ⟨fun _ => hprogram.mp ⟨tree, p, hcompiled⟩, fun _ => ?_⟩
      rw [houtcome, carryOut_check (Option.some.inj hcheck)]
      rfl

/-- Files as a list of paths with what they hold, where every path can be written. -/
def listedFiles : Files (List (String × String)) where
  read files path := (files.lookup path).elim (.error .notFound) .ok
  write files path content := .ok ((path, content) :: files)

/-- A build that is to write the JSON form of the program in another file. -/
def buildWords : List String :=
  ["-q", "build", "--entry=start", "-djson", "-o", "out.json", "trees/blank.json"]

/-- What these words ask for. -/
def buildInvocation : Invocation where
  file := "trees/blank.json"
  options := { entryName := "start" }
  level := some .error
  task := .build .json (some "out.json") false

/-- If the file is blank, the build ends with the library's error, and `out.json` is not
    written. -/
theorem blank_build_fails :
    Invocation.ofWords buildWords = .ok buildInvocation ∧
      perform (listedFiles.surroundings none) buildWords [("trees/blank.json", " ")] =
        ({ status := 1
           stderr := "error[pyll.source]: The syntax tree in 'blank.json' is empty.\n" },
          [("trees/blank.json", " ")]) := by
  have hwords : Invocation.ofWords buildWords = .ok buildInvocation := by decide +kernel
  have hname : baseName buildInvocation.file = "blank.json" := by
    have hpath : buildInvocation.file = "trees" ++ "/" ++ "blank.json" := rfl
    rw [hpath]
    exact baseName_append "trees" (by decide) (by decide)
  have hempty (name path : String) : (Source.mk name path " ").isEmpty = true := by
    change " ".toList.all Charset.blank.contains = true
    decide +kernel
  have hread : listedFiles.read [("trees/blank.json", " ")] buildInvocation.file = .ok " " := by
    decide +kernel
  obtain ⟨-, hfails, -⟩ :=
    perform_agrees hwords listedFiles none [("trees/blank.json", " ")]
  simp only [hread, compileFile, compileNoting, Source.tree, hempty, if_true, hname] at hfails
  obtain ⟨d, hd, houtcome⟩ := hfails _ rfl
  cases hd
  have hreport : buildInvocation.logged none #[] ++
      complaintText (SourceError.empty "blank.json").diagnostic =
        "error[pyll.source]: The syntax tree in 'blank.json' is empty.\n" := by decide +kernel
  exact ⟨hwords, houtcome.trans (by rw [hreport])⟩

end Command

end Blockform
