import Reckoner.AngleMode
/-!
# What is reported in passing

The events that a session, a batch or a program run reports while it goes on, and the line each is
written as. Expressions are cut to fifty characters, but for those given on a command line.

Left out are the time of each line, the debug lines, which a program run does not show, and the line about
an operator of an unknown name: no text has one, and the error of its evaluation says the same.
-/

namespace Reckoner

inductive LogEvent where
  | modeSet (mode : AngleMode)
  | cacheCleared (hits misses : Nat)
  | submissionFailed (expression : String) (error : EvaluationError)
  | historyCleared
  | loading (path : String)
  | blankSkipped (count : Nat)
  | incompleteFound (count : Nat) (first : String)
  | loaded (count : Nat)
  | rowFailed (expression : String) (error : EvaluationError)
  | batchDone (count failed : Nat)
  | saving (path : String)
  | started (mode : AngleMode)
  | optionFailed (expression : String) (error : EvaluationError)

namespace LogEvent

def info (source message : String) : String := "INFO " ++ source ++ ": " ++ message

def warning (source message : String) : String := "WARNING " ++ source ++ ": " ++ message

def error (source message : String) : String := "ERROR " ++ source ++ ": " ++ message

def cut (expression : String) : String := Text.take expression 50

def line : LogEvent → String
  | modeSet mode => info "session.calculator" ("Angle mode set to " ++ mode.name)
  | cacheCleared hits misses =>
    info "session.calculator" ("Cache cleared. Hits: " ++ toString hits ++ ", Misses: " ++ toString misses)
  | submissionFailed expression e =>
    error "session.calculator" ("Error evaluating expression '" ++ cut expression ++ "': " ++ e.message ++
      " (" ++ e.kind.code ++ ")")
  | historyCleared => info "session.history" "History cleared"
  | loading path => info "data.expression_loader" ("Loading expressions from " ++ path)
  | blankSkipped count =>
    warning "data.expression_loader" ("Skipping " ++ toString count ++ " blank expressions")
  | incompleteFound count first =>
    warning "data.expression_loader" ("Found " ++ toString count ++ " incomplete expressions, first: " ++
      cut first)
  | loaded count => info "data.expression_loader" ("Loaded " ++ toString count ++ " expressions")
  | rowFailed expression e =>
    warning "data.expression_loader" ("Failed to evaluate expression: " ++ cut expression ++ " (" ++
      e.message ++ ")")
  | batchDone count failed =>
    info "data.expression_loader" ("Evaluated " ++ toString count ++ " expressions, " ++ toString failed ++
      " failed")
  | saving path => info "data.expression_loader" ("Saving results to " ++ path)
  | started mode => info "__main__" ("Starting calculator (angle mode: " ++ mode.name ++ ")")
  | optionFailed expression e =>
    error "__main__" ("Error evaluating '" ++ expression ++ "': " ++ e.message)

end LogEvent

end Reckoner
