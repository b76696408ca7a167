import Reckoner.Token
/-!
# Postfix order

`Postfix.ofTokens` brings an infix sequence into postfix order with a stack of waiting operators: an
operand is put out at once, a closing parenthesis puts out its group and then the function it belongs
to, and a binary operator first puts out the waiting operators that bind at least as tightly. So every
level groups to the left, `-` without a left operand is `neg`, and constants are put out as numbers.

Only parentheses that do not match stop a sequence of scanned tokens; made-up tokens can also lack the
fields that are needed here.
-/

namespace Reckoner.Postfix

/-- Whether an operand comes next, so that `-` has no left operand here. -/
def expectsOperand (previous : Option Token) : Bool :=
  previous.all fun t => t.type = .leftParen || t.type = .operator || t.type = .function

/-- The token as it counts after `previous`. -/
def resolve (previous : Option Token) (t : Token) : Token :=
  if t.name = "-" && expectsOperand previous then .negation else t

/-- Whether a waiting operator binds at least as tightly as the next one. -/
def bindsTighter (waiting next : Token) : Except Fault Bool :=
  match waiting.precedence, next.precedence with
  | some p, some q => .ok (q ≤ p)
  | p, q =>
    let kind (p : Option Int) := (p.map Datum.int |>.getD .null).kind
    .error (.incomparable ">=" (kind p) (kind q))

/-- The operators on top of the stack that bind at least as tightly as the next one, and the rest. -/
def popTighter (next : Token) : List Token → Except Fault (List Token × List Token)
  | [] => .ok ([], [])
  | waiting :: stack =>
    if waiting.type = .operator then do
      if ← bindsTighter waiting next then
        let (popped, rest) ← popTighter next stack
        return (waiting :: popped, rest)
      else return ([], waiting :: stack)
    else .ok ([], waiting :: stack)

/-- The stack down to the open group, with the function before the group, and the rest. -/
def popGroup (stack : List Token) : Except Fault (List Token × List Token) :=
  let group := stack.takeWhile (·.type ≠ .leftParen)
  match stack.dropWhile (·.type ≠ .leftParen) with
  | [] => .error (.evaluation .unexpectedClose)
  | [_] => .ok (group, [])
  | _ :: below :: rest =>
    if below.type = .function then .ok (group ++ [below], rest) else .ok (group, below :: rest)

/-- What a token puts out, and the stack after it. -/
def step (stack : List Token) (t : Token) : Except Fault (List Token × List Token) :=
  match t.type with
  | .number => .ok ([t], stack)
  | .constant => match t.value with
    | some x => .ok ([.number x t.name], stack)
    | none => .error (.notConvertible .null)
  | .function | .leftParen => .ok ([], t :: stack)
  | .rightParen => popGroup stack
  | .operator =>
    if t.arity = 1 then .ok ([], t :: stack)
    else do
      let (popped, rest) ← popTighter t stack
      return (popped, t :: rest)
  | .other _ => .error (.evaluation (.unknownToken t.name))

/-- What is left on the stack at the end. -/
def finish : List Token → Except Fault (List Token)
  | [] => .ok []
  | t :: stack =>
    if t.type = .leftParen then .error (.evaluation .unclosedGroup)
    else (t :: ·) <$> finish stack

/-- The output from here on. -/
def convert (previous : Option Token) (stack : List Token) : List Token → Except Fault (List Token)
  | [] => finish stack
  | t :: ts => do
    let t := resolve previous t
    let (output, stack) ← step stack t
    let rest ← convert (some t) stack ts
    return output ++ rest

def ofTokens (tokens : List Token) : Except Fault (List Token) := convert none [] tokens

/-! ## Depth -/

/-- How many values a postfix sequence leaves on a stack that starts with `depth` values; `none` if an
operator lacks operands or a token has no place in postfix order. -/
def depthFrom? (depth : Int) : List Token → Option Int
  | [] => some depth
  | t :: ts =>
    match t.type with
    | .number => depthFrom? (depth + 1) ts
    | .operator | .function =>
      if depth < t.arity then none else depthFrom? (depth - t.arity + 1) ts
    | _ => none

def depth? (postfixed : List Token) : Option Int := depthFrom? 0 postfixed

/-- Whether the sequence computes exactly one value. -/
def isComplete (postfixed : List Token) : Bool := depth? postfixed = some 1

end Reckoner.Postfix
