import Reckoner.Lexeme
import Reckoner.Fault
/-!
# Tokens

The unit that conversion and evaluation work on. A lexeme has one token (`Lexeme.token`), and `-`
without a left operand becomes `Token.negation`; a caller may also make up tokens with any mix of
fields, so the fields are independent.
-/

namespace Reckoner

inductive TokenType where
  | number
  | constant
  | operator
  | function
  | leftParen
  | rightParen
  /-- A type from a caller that is none of the others. -/
  | other (label : Option String)
  deriving DecidableEq

def TokenType.name : TokenType → String
  | number => "number"
  | constant => "constant"
  | operator => "operator"
  | function => "function"
  | leftParen => "left_paren"
  | rightParen => "right_paren"
  | other label => label.getD ""

def TokenType.ofName (name : String) : TokenType :=
  ([number, constant, operator, function, leftParen, rightParen].find? (·.name = name)).getD
    (other name)

structure Token where
  type : TokenType
  name : String
  value : Option Double
  arity : Int
  precedence : Option Int
  deriving DecidableEq

namespace Token

/-- A number under a name of its own, or else under its text. -/
def number (value : Double) (name : Option String) : Token :=
  ⟨.number, name.getD value.render, some value, 0, none⟩

/-- Minus without a left operand; it binds tighter than every binary operator. -/
def negation : Token := ⟨.operator, "neg", none, 1, some 4⟩

end Token

def Symbol.token : Symbol → Token
  | openGroup => ⟨.leftParen, "(", none, 0, none⟩
  | closeGroup => ⟨.rightParen, ")", none, 0, none⟩
  | binary op => ⟨.operator, op.spelling, none, 2, some op.precedence⟩
  | function f => ⟨.function, f.spelling, none, 1, none⟩
  | constant c => ⟨.constant, c.spelling, some c.value, 0, none⟩

def Lexeme.token : Lexeme → Token
  | literal n => .number n.value n.spelling
  | symbol s => s.token

/-- The tokens of a text. -/
def tokenize (text : String) : List Token := (Lexeme.scan text.toList).map Lexeme.token

namespace Token

/-- The tokens that are known by name, in the order in which they are presented. -/
def predefined : List Token :=
  [Symbol.openGroup.token, Symbol.closeGroup.token] ++
    BinaryOp.all.map (Symbol.binary · |>.token) ++ [negation] ++
    Func.all.map (Symbol.function · |>.token) ++ Constant.all.map (Symbol.constant · |>.token)

def named? (name : String) : Option Token := predefined.find? (·.name = name)

/-- The token that a caller names. -/
def ofName (name : String) : Except Fault Token :=
  match named? name with
  | some t => .ok t
  | none => .error (.noSuchToken name)

/-! ## Identity -/

/-- What two tokens have to share to be equal: numbers their value, all others type and name. -/
inductive Identity where
  | number (value : Double)
  | named (type : TokenType) (name : String)
  deriving DecidableEq

/-- Both zeros are one value, and so are all that are not numbers. A number without a value has no
identity. -/
def identity (t : Token) : Except Fault Identity :=
  if t.type = .number then
    match t.value with
    | some x => .ok (.number (if x.isZero then .zero false else x))
    | none => .error (.notReal .null)
  else .ok (.named t.type t.name)

/-- A token inside a message. -/
def shown (t : Token) : String :=
  let content :=
    if t.type = .number then (t.value.map Datum.float |>.getD .null).shown else Text.quoted t.name
  "Token(" ++ content ++ ")"

end Token

end Reckoner
