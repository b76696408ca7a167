import Reckoner.Session
/-!
# Dialogues

A session driven line by line. A line is a command or an expression; the display holds what was last
shown for an expression or recalled from memory, and the memory keys read it. The dialogue ends at
`quit` or `exit`, at the end of the input, or at a fault of the session itself.
-/

namespace Reckoner

inductive Command where
  | nothing
  | quit
  | help
  | setMode (mode : AngleMode)
  | press (key : MemoryKey)
  | showHistory
  | clearHistory
  /-- The history entry at the position that the second word gives. -/
  | again (position : Option String)
  | expression (text : String)
  deriving DecidableEq

/-- The command that a stripped line stands for. Whatever starts with `recall` takes an entry
of the history again. -/
def Command.ofLine (line : String) : Command :=
  if line = "" then nothing
  else if line = "quit" || line = "exit" then quit
  else if line = "help" then help
  else if line = "deg" then setMode .degree
  else if line = "rad" then setMode .radian
  else match MemoryKey.named? line with
    | some key => press key
    | none =>
      if line = "history" then showHistory
      else if line = "clear" then clearHistory
      else if "recall".toList.isPrefixOf line.toList then
        again ((Text.words line.toList)[1]?.map String.ofList)
      else expression line

def helpText : String := "Commands:
  <expression>      evaluate, e.g. 2+3*4, sin(90), fact(5)
  m+ m- mc mr       memory register (m+/m- use the last result)
  history           show history (most recent first)
  recall <n>        evaluate history entry n again
  clear             clear history
  deg / rad         switch angle mode
  quit              exit"

structure Dialogue where
  session : Session
  display : String

/-- How a line leaves the dialogue. -/
inductive Ending where
  | goesOn
  | quits
  | faults (f : Fault)

/-- What comes of a line. -/
structure Reply where
  dialogue : Dialogue
  outputs : List String
  log : List LogEvent
  ending : Ending

namespace Dialogue

def announceMode (mode : AngleMode) : String := "Angle mode: " ++ mode.name

def start (s : Session) : Dialogue := ⟨s, ""⟩

def greeting (s : Session) : String := announceMode s.mode ++ ". Type 'help' for commands."

/-- What the answer to a submission shows. -/
def shown (s : Submission) : String :=
  match s.outcome with
  | .ok x => x.render
  | .error e => e.message

/-- The lines of a history, the newest first. -/
def historyLines (h : History String) : List String :=
  h.entries.mapIdx fun i (expression, result) =>
    toString i ++ ": " ++ expression ++ " = " ++ result.render

/-- The integer that a word names. -/
def readPosition (word : String) : Except Fault Int :=
  match Numeral.integer? word with
  | .ok i => .ok i
  | .error .malformed => .error (.notAnInteger word)
  | .error (.tooLong digits) => .error (.integerTooLong digits)

/-- The history entry that a position asks for. -/
def recalled (s : Session) (position : Option String) : Except Fault String :=
  match position with
  | none => .error .noSecondWord
  | some word => do s.history.expressionAtDatum (.int (← readPosition word))

def continuing (d : Dialogue) (outputs : List String) (log : List LogEvent) : Reply :=
  ⟨d, outputs, log, .goesOn⟩

def submit (d : Dialogue) (expression : String) : Reply :=
  match d.session.submit expression with
  | (.ok submission, s) =>
    continuing ⟨s, shown submission⟩ [shown submission] submission.log
  | (.error f, s) => ⟨{ d with session := s }, [], [], .faults f⟩

def press (d : Dialogue) (key : MemoryKey) : Reply :=
  match Display.read d.display with
  | .error f => ⟨d, [], [], .faults f⟩
  | .ok x =>
    let (memory, recalled) := d.session.memory.press key x
    let session := { d.session with memory }
    match recalled with
    | some x => continuing ⟨session, x.render⟩ [x.render] []
    | none => continuing { d with session } [] []

def perform (d : Dialogue) : Command → Reply
  | .nothing => continuing d [] []
  | .quit => ⟨d, [], [], .quits⟩
  | .help => continuing d [helpText] []
  | .setMode mode =>
    let (session, log) := d.session.setMode mode
    continuing { d with session } [announceMode mode] log
  | .press key => d.press key
  | .showHistory => continuing d (historyLines d.session.history) []
  | .clearHistory =>
    let (session, log) := d.session.clearHistory
    continuing { d with session } [] log
  | .again position => match recalled d.session position with
    | .ok expression => d.submit expression
    | .error f => continuing d ["Error: " ++ f.message] []
  | .expression text => d.submit text

def respond (d : Dialogue) (line : String) : Reply := d.perform (.ofLine (Text.strip line))

end Dialogue

/-! ## Whole dialogues -/

inductive Utterance where
  | prompt
  | output (text : String)
  deriving DecidableEq

/-- What is said and reported from some line on, and where it leads. -/
structure Transcript where
  said : List Utterance
  log : List LogEvent
  session : Session
  fault : Option Fault

namespace Transcript

def after (r : Reply) (t : Transcript) : Transcript :=
  { t with said := r.outputs.map .output ++ t.said, log := r.log ++ t.log }

def ended (s : Session) (fault : Option Fault) : Transcript := ⟨[], [], s, fault⟩

/-- Every line is prompted for, and so is the end of the input. -/
def prompted (t : Transcript) : Transcript := { t with said := .prompt :: t.said }

def ofLines (d : Dialogue) : List String → Transcript
  | [] => prompted (ended d.session none)
  | line :: lines =>
    let r := d.respond line
    prompted <| after r <| match r.ending with
      | .goesOn => ofLines r.dialogue lines
      | .quits => ended r.dialogue.session none
      | .faults f => ended r.dialogue.session f

/-- The dialogue over the lines of an input, from its greeting on. -/
def ofInput (s : Session) (lines : List String) : Transcript :=
  let t := ofLines (.start s) lines
  { t with said := .output (Dialogue.greeting s) :: t.said }

def outputs (t : Transcript) : List String :=
  t.said.filterMap fun
    | .output text => some text
    | .prompt => none

/-- How often a line was asked for. -/
def reads (t : Transcript) : Nat := t.said.count .prompt

def promptText : String := "> "

/-- What appears on a terminal: outputs end their line, prompts do not. -/
def text (t : Transcript) : String :=
  String.join (t.said.map fun
    | .output text => text ++ "\n"
    | .prompt => promptText)

end Transcript

end Reckoner
