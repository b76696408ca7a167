import Reckoner.CommandLine.Program
/-!
# The program

Reads files and standard input and writes what the library answers: results to standard output, log
lines and usage errors to standard error.
-/

namespace Reckoner.CommandLine

/-- The content of a file, or why it cannot be opened. -/
def readFile (path : String) : IO (Except Disk.Error ByteArray) := do
  try return .ok (← IO.FS.readBinFile path)
  catch
    | .noFileOrDirectory .. => return .error .missing
    | .inappropriateType .. => return .error .isFolder
    | e => throw e

def isFolder (path : String) : IO Bool := do
  try (← IO.FS.realPath path).isDir catch _ => return false

/-- What the disk answers to the questions that the options lead to. -/
def probe (o : Options) : IO Disk := do
  let content ← if o.inputPath = "" then pure (.error .missing) else readFile o.inputPath
  let hasFolder ← isFolder (folderOf o.savePath)
  return ⟨fun _ => content, fun _ => .ok hasFolder, fun _ => .ok ()⟩

def logTo (stderr : IO.FS.Stream) (events : List LogEvent) : IO Unit :=
  for event in events do stderr.putStrLn event.line

/-- Answers line by line until the dialogue ends. -/
partial def converseOn (stdin stdout stderr : IO.FS.Stream) (d : Dialogue) : IO (Option Fault) := do
  stdout.putStr Transcript.promptText
  stdout.flush
  let line ← stdin.getLine
  if line.isEmpty then return none
  let reply := d.respond line
  for output in reply.outputs do stdout.putStrLn output
  logTo stderr reply.log
  match reply.ending with
  | .goesOn => converseOn stdin stdout stderr reply.dialogue
  | .quits => return none
  | .faults f => return some f

def runWith (o : Options) (s : Session) : IO UInt32 := do
  let stdin ← IO.getStdin
  let stdout ← IO.getStdout
  let stderr ← IO.getStderr
  let p := beforeDialogue (← probe o) o s
  logTo stderr p.log
  stdout.putStr p.stdout
  for (path, text) in p.written do IO.FS.writeFile path text
  let mut fault := p.fault
  if fault.isNone && wantsDialogue o then
    stdout.putStrLn (Dialogue.greeting p.session)
    fault ← converseOn stdin stdout stderr (.start p.session)
  match fault with
  | some f =>
    stderr.putStrLn f.message
    return 1
  | none => return if p.failed then 1 else 0

end Reckoner.CommandLine

open Reckoner Reckoner.CommandLine in
def main (arguments : List String) : IO UInt32 := do
  match parse arguments with
  | .error e =>
    (← IO.getStderr).putStrLn e.line
    return 2
  | .ok .help =>
    (← IO.getStdout).putStr helpPage
    return 0
  | .ok (.run o) => match session o with
    | .error f =>
      (← IO.getStderr).putStrLn f.message
      return 1
    | .ok s => runWith o s
