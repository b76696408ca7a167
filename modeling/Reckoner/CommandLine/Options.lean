import Reckoner.AngleMode
import Reckoner.Text.Digit
/-!
# Options of the command line

An option is given by its name or by the start of a name that no other shares, with its value behind
`=` or in the next argument. An argument that begins with `-` is a value only if it is a plain negative
number or has a space in it, and nothing is an option after `--`. Where `--` stands behind `=` it is
dropped, and the option gets an empty list of values. Flags of one letter may share a dash. Positional
arguments are not known, so whatever is left over is refused at the end.
-/

namespace Reckoner.CommandLine

inductive Switch where
  | help
  | expression
  | inputPath
  | expressionColumn
  | angleMode
  | interactive
  | allowPartial
  | saveResults
  | outputPath
  deriving DecidableEq

namespace Switch

/-- Every name with its option, in the order in which names are listed. -/
def names : List (String × Switch) :=
  [("-h", help), ("--help", help), ("--expression", expression), ("--input_path", inputPath),
    ("--expression_column", expressionColumn), ("--angle_mode", angleMode),
    ("--interactive", interactive), ("--allow_partial", allowPartial),
    ("--save_results", saveResults), ("--output_path", outputPath)]

def takesValue : Switch → Bool
  | expression | inputPath | expressionColumn | angleMode | outputPath => true
  | help | interactive | allowPartial | saveResults => false

/-- All names of an option. -/
def title (s : Switch) : String :=
  "/".intercalate ((names.filter (·.2 = s)).map (·.1))

end Switch

inductive UsageError where
  | ambiguous (argument : String) (candidates : List String)
  | valueMissing (s : Switch)
  | valueIgnored (s : Switch) (value : String)
  | unknownChoice (value : String)
  | unrecognized (arguments : List String)

def UsageError.message : UsageError → String
  | ambiguous argument candidates =>
    "ambiguous option: " ++ argument ++ " could match " ++ ", ".intercalate candidates
  | valueMissing s => "argument " ++ s.title ++ ": expected one argument"
  | valueIgnored s value =>
    "argument " ++ s.title ++ ": ignored explicit argument " ++ Text.quoted value
  | unknownChoice value =>
    "argument " ++ Switch.angleMode.title ++ ": invalid choice: " ++ Text.quoted value ++
      " (choose from 'radian', 'degree')"
  | unrecognized arguments => "unrecognized arguments: " ++ " ".intercalate arguments

/-! ## Classes of arguments -/

inductive Argument where
  | plain (s : String)
  | separator
  /-- It looks like an option but is none. -/
  | unknown (s : String)
  /-- An option, given by a name of one letter or by a long one, and what is attached to the name. -/
  | switch (s : Switch) (isLetter : Bool) (attached : Option String)

/-- The part before the first equals sign and, if there is one, the part behind it. -/
def splitEquals (s : String) : String × Option String :=
  let cs := s.toList
  match cs.dropWhile (· ≠ '=') with
  | [] => (s, none)
  | _ :: rest => (String.ofList (cs.takeWhile (· ≠ '=')), some (String.ofList rest))

def isLetterName (name : String) : Bool := name.length = 2

/-- Whether a text is `-` and digits, with a point before some of them or without one; a line end may
follow. -/
def isNegativeNumber (s : String) : Bool :=
  match s.toList with
  | '-' :: cs =>
    let cs := if cs.getLast? = some '\n' then cs.dropLast else cs
    let digits (ds : List Char) : Bool := !ds.isEmpty && ds.all Text.isDecimalDigit
    match cs.dropWhile Text.isDecimalDigit with
    | '.' :: fraction => digits fraction
    | _ => digits cs
  | _ => false

/-- The options that an argument may stand for, each with its full name: as the start of a name, or as a
name of one letter with something behind it. -/
def candidates (s : String) : List (String × Switch × Option String) :=
  if "--".toList.isPrefixOf s.toList then
    let (start, attached) := splitEquals s
    (Switch.names.filter fun (name, _) => start.toList.isPrefixOf name.toList).map
      fun (name, switch) => (name, switch, attached)
  else
    Switch.names.filterMap fun (name, switch) =>
      if name = Text.take s 2 then some (name, switch, some (String.ofList (s.toList.drop 2)))
      else if s.toList.isPrefixOf name.toList then some (name, switch, none)
      else none

def classify (s : String) : Except UsageError Argument :=
  if !"-".toList.isPrefixOf s.toList then .ok (.plain s)
  else
    let (start, attached) := splitEquals s
    match Switch.names.lookup s, Switch.names.lookup start with
    | some switch, _ => .ok (.switch switch (isLetterName s) none)
    | none, some switch => .ok (.switch switch (isLetterName start) attached)
    | none, none =>
      if s.length = 1 then .ok (.plain s)
      else match candidates s with
        | [(name, switch, attached)] => .ok (.switch switch (isLetterName name) attached)
        | [] =>
          if isNegativeNumber s || s.toList.contains ' ' then .ok (.plain s) else .ok (.unknown s)
        | several => .error (.ambiguous s (several.map (·.1)))

def classifyAll : List String → Except UsageError (List Argument)
  | [] => .ok []
  | s :: rest =>
    if s = "--" then .ok (.separator :: rest.map .plain)
    else do return (← classify s) :: (← classifyAll rest)

/-! ## Options -/

/-- What a command line sets. An expression, a column or a mode is handed on as it was given, as a text
or as an empty list; a path that is an empty list counts as none. -/
structure Options where
  expressions : List Datum := []
  inputPath : String := ""
  column : Datum := .text "expression"
  mode : Datum := .text AngleMode.radian.name
  interactive : Bool := false
  partially : Bool := false
  save : Bool := false
  outputPath : String := ""

/-- Where results are saved if no path is given. -/
def defaultOutputPath : String := "calculator_results.csv"

/-- Sets the value of an option; `none` is an empty list, which no choice is asked of. -/
def Options.setValue (o : Options) (s : Switch) (value : Option String) : Except UsageError Options :=
  let given : Datum := value.elim (.list []) .text
  match s, value with
  | .expression, _ => .ok { o with expressions := o.expressions ++ [given] }
  | .inputPath, _ => .ok { o with inputPath := value.getD "" }
  | .expressionColumn, _ => .ok { o with column := given }
  | .outputPath, _ => .ok { o with outputPath := value.getD "" }
  | .angleMode, some v =>
    if v = "radian" || v = "degree" then .ok { o with mode := given } else .error (.unknownChoice v)
  | .angleMode, none => .ok { o with mode := given }
  | _, _ => .ok o

def Options.setFlag (o : Options) : Switch → Options
  | .interactive => { o with interactive := true }
  | .allowPartial => { o with partially := true }
  | .saveResults => { o with save := true }
  | _ => o

/-- What a command line asks for. -/
inductive Request where
  | help
  | run (o : Options)

/-- The flags that letters behind a flag of one letter stand for; all of them have to be flags. -/
def furtherFlags (s : Switch) : List Char → Except UsageError (List Switch)
  | [] => .ok []
  | c :: cs => match Switch.names.lookup (String.ofList ['-', c]) with
    | some next => (next :: ·) <$> furtherFlags next cs
    | none => .error (.valueIgnored s (String.ofList (c :: cs)))

/-- All flags that an argument stands for. -/
def flags (s : Switch) (isLetter : Bool) : (attached : Option String) → Except UsageError (List Switch)
  | none => .ok [s]
  | some v =>
    if isLetter && v ≠ "" then (s :: ·) <$> furtherFlags s v.toList else .error (.valueIgnored s v)

/-- The value that an attached text stands for. -/
def attachedValue (v : String) : Option String := if v = "--" then none else some v

/-- Takes the arguments one by one; `extra` is what nothing is done with. Help is given as soon as it is
asked for. -/
def consume (o : Options) (extra : List String) : List Argument → Except UsageError Request
  | [] => if extra.isEmpty then .ok (.run o) else .error (.unrecognized extra)
  | .plain s :: rest => consume o (extra ++ [s]) rest
  | .separator :: rest => consume o (extra ++ ["--"]) rest
  | .unknown s :: rest => consume o (extra ++ [s]) rest
  | .switch s isLetter attached :: rest =>
    if s.takesValue then
      match attached, rest with
      | some v, rest => do consume (← o.setValue s (attachedValue v)) extra rest
      | none, .plain v :: rest => do consume (← o.setValue s (some v)) extra rest
      | none, _ => .error (.valueMissing s)
    else do
      let given ← flags s isLetter attached
      if given.contains .help then return .help
      consume (given.foldl Options.setFlag o) extra rest

def parse (arguments : List String) : Except UsageError Request := do
  consume {} [] (← classifyAll arguments)

def programName : String := "main.py"

/-- The line that reports a usage error. -/
def UsageError.line (e : UsageError) : String := programName ++ ": error: " ++ e.message

end Reckoner.CommandLine
