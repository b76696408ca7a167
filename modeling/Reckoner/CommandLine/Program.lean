import Reckoner.Batch
import Reckoner.CommandLine.Options
import Reckoner.Dialogue
import Reckoner.Disk.Basic
import Reckoner.Disk.Path
import Reckoner.ExpressionFile
import Reckoner.Settings
/-!
# A run of the program

The expressions of a file are evaluated first and reported line by line, then the expressions given as
options, all in one session; a dialogue follows if it is asked for or if there was nothing else to do.
The exit status is 1 as soon as one expression of a file or an option has no value. `run` is the whole
run on a given input; `beforeDialogue` is all of it that needs no input.

Paths lead to files on the disk as they are written: a `~` for the home folder, addresses on a network and
compression by the ending of a name are left out.
-/

namespace Reckoner.CommandLine

/-- How far a run has come. -/
structure Progress where
  session : Session
  stdout : String
  log : List LogEvent
  written : List (String × String)
  failed : Bool
  fault : Option Fault

namespace Progress

/-- The next stage, unless a fault has stopped the run. -/
def andThen (p : Progress) (stage : Progress → Progress) : Progress :=
  if p.fault.isSome then p else stage p

def printLines (p : Progress) (lines : List String) : Progress :=
  { p with stdout := p.stdout ++ String.join (lines.map (· ++ "\n")) }

def report (p : Progress) (events : List LogEvent) : Progress := { p with log := p.log ++ events }

end Progress

/-! ## Stages -/

/-- Where the rows of a batch are written. -/
def Options.savePath (o : Options) : String :=
  if o.outputPath = "" then defaultOutputPath else o.outputPath

/-- The folder that has to be there for a file to be written at a path. -/
def folderOf (path : String) : String := (Disk.Path.ofText path).folder.text

/-- Writes the rows of a batch, if the folder of the path is there and the path can be written. -/
def saveRows (disk : Disk) (path : String) (rows : List BatchRow) (p : Progress) : Progress :=
  let p := p.report [.saving path]
  let folder := folderOf path
  match disk.hasFolder folder, disk.checkWrite path with
  | .error e, _ => { p with fault := some (.disk e folder) }
  | .ok false, _ => { p with fault := some (.noSuchFolder folder) }
  | .ok true, .error e => { p with fault := some (.disk e path) }
  | .ok true, .ok () => { p with written := p.written ++ [(path, Batch.csv rows)] }

/-- Evaluates the expressions of a file. -/
def runFile (disk : Disk) (o : Options) (p : Progress) : Progress :=
  if o.inputPath = "" then p
  else
    let (loaded, log) := ExpressionFile.load o.inputPath o.column (disk.read o.inputPath)
    let p := p.report log
    match loaded with
    | .error f => { p with fault := some f }
    | .ok expressions =>
      let (rows, session, log) := Batch.evaluate p.session (expressions.map .text)
      let p := { p with session }.report log
      match rows with
      | .error f => { p with fault := some f }
      | .ok rows =>
        let p := { p with failed := Batch.failures rows ≠ 0 }.printLines (rows.map Batch.reportLine)
        if o.save then
          saveRows disk o.savePath rows p
        else p

/-- Evaluates one expression from an option. -/
def runOption (p : Progress) (expression : Datum) : Progress :=
  p.andThen fun p =>
    let (outcome, session) := p.session.evaluateData expression
    let p := { p with session }
    match outcome with
    | .ok x => p.printLines [x.render]
    | .error (.evaluation e) =>
      { p.report [.optionFailed expression.plain e] with failed := true }.printLines ["Error: " ++ e.message]
    | .error f => { p with fault := some f }

/-- The session that a run works in. -/
def session (o : Options) : Except Fault Session :=
  Session.create o.mode Settings.standard.historySize Settings.standard.cacheSize
    (.bool (o.partially || Settings.standard.allowPartial.isGiven))

/-- The files and the options, up to where a dialogue would begin. -/
def beforeDialogue (disk : Disk) (o : Options) (s : Session) : Progress :=
  let start : Progress := ⟨s, "", [.started s.mode], [], false, none⟩
  o.expressions.foldl runOption (runFile disk o start)

def wantsDialogue (o : Options) : Bool :=
  o.interactive || (o.inputPath = "" && o.expressions.isEmpty)

def converse (input : String) (p : Progress) : Progress :=
  let t := Transcript.ofInput p.session ((Text.feedLines input.toList).map String.ofList)
  { p with session := t.session, stdout := p.stdout ++ t.text, log := p.log ++ t.log, fault := t.fault }

/-! ## Whole runs -/

inductive Result where
  | exit (status : Nat)
  | help
  | usage (e : UsageError)
  | fault (f : Fault)

structure Outcome where
  stdout : String
  log : List LogEvent
  written : List (String × String)
  result : Result

def Progress.outcome (p : Progress) : Outcome where
  stdout := p.stdout
  log := p.log
  written := p.written
  result := match p.fault with
    | some f => .fault f
    | none => .exit (if p.failed then 1 else 0)

def runOptions (disk : Disk) (o : Options) (input : String) : Outcome :=
  match session o with
  | .error f => ⟨"", [], [], .fault f⟩
  | .ok s =>
    let p := beforeDialogue disk o s
    (p.andThen fun p => if wantsDialogue o then converse input p else p).outcome

def helpPage : String := "usage: main.py [-h] [--expression EXPRESSION] [--input_path INPUT_PATH]
               [--expression_column EXPRESSION_COLUMN]
               [--angle_mode \x7bradian,degree\x7d] [--interactive]
               [--allow_partial] [--save_results] [--output_path OUTPUT_PATH]

Scientific calculator expression evaluator

options:
  -h, --help            show this help message and exit
  --expression EXPRESSION
                        Expression to evaluate (can be given multiple times)
  --input_path INPUT_PATH
                        Path to a CSV or text file of expressions
  --expression_column EXPRESSION_COLUMN
                        Name of the expression column in a CSV input
  --angle_mode \x7bradian,degree\x7d
                        Angle mode for trigonometric functions
  --interactive         Start the interactive loop (after any
                        --expression/--input_path evaluation)
  --allow_partial       Return the bottom of the stack instead of failing when
                        operands are left over
  --save_results        Save batch results to a CSV file
  --output_path OUTPUT_PATH
                        Path to save batch results
"

def run (arguments : List String) (input : String) (disk : Disk) : Outcome :=
  match parse arguments with
  | .error e => ⟨"", [], [], .usage e⟩
  | .ok .help => ⟨helpPage, [], [], .help⟩
  | .ok (.run o) => runOptions disk o input

end Reckoner.CommandLine
