import Tripwire.Expr
import Tripwire.Number.Integer
import Tripwire.Token.Scan

/-!
# Reading expressions

The grammar is

    expr   ::= [ "[" word "]" ] ( group | test )
    group  ::= ("&" | "|") "(" expr ("," expr)* ")"
    test   ::= operator "(" word "," (word | quoted) ")"

A parser reads one token at a time. It keeps the groups that are open and what the next
token has to be, so an error is found at the first token that no continuation could mend.
A scope reaches every test below it until a nested scope replaces it, and a test outside
all scopes is an error at its operator. Where the tokens end without an end marker the last
one is what stands next.
-/

namespace Tripwire

/-- No expression is enclosed by this many others. -/
def Expr.depthLimit : Nat := 256

namespace Parser

/-- A group whose closing parenthesis is still to come; its members are latest first. -/
structure OpenGroup where
  junction : Junction
  scope : Option SensorId
  start : Nat
  members : List Expr

/-- The beginning of a test. -/
structure Heading where
  sensor : SensorId
  operator : Comparison
  start : Nat

/-- What the next token has to be. -/
inductive Awaiting where
  | subject
  | sensorId
  | closeBracket (scope : SensorId)
  | operator (scope : Option SensorId)
  | openGroup (junction : Junction) (scope : Option SensorId) (start : Nat)
  | openTest (heading : Heading)
  | fieldName (heading : Heading)
  | comma (heading : Heading) (field : Token)
  | literal (heading : Heading) (field : Token)
  | closeTest (heading : Heading) (field : Token) (literal : Literal)
  | follower (expr : Expr)
  | nothing (expr : Expr)

end Parser

/-- The open groups, innermost first, and what comes next. -/
structure Parser where
  groups : List Parser.OpenGroup
  awaiting : Parser.Awaiting

namespace Parser

def start : Parser := ⟨[], .subject⟩

/-- The scope that a member of the innermost open group begins with. -/
def scope (parser : Parser) : Option SensorId :=
  parser.groups.head?.bind OpenGroup.scope

def await (parser : Parser) (awaiting : Awaiting) : Parser :=
  { parser with awaiting }

/-- The token is none of those wanted. -/
def unexpected (wanted : Expectation) (token : Token) : Error :=
  .malformed token.span.start (.expected wanted token.found)

/-- Reads the sensor id between brackets. -/
def scopeOf (token : Token) : Except Error SensorId :=
  match Number.unsigned? 10 32 token.text.toList with
  | some id => .ok (UInt32.ofNat id)
  | none => .error (.malformed token.span.start (.badScope token.text))

/-- Reads the first token of a group or of a test. -/
def readOperator (parser : Parser) (scope : Option SensorId) (token : Token) :
    Except Error Parser :=
  match token.kind, scope with
  | .junction junction, _ => .ok (parser.await (.openGroup junction scope token.span.start))
  | .comparison operator, some sensor =>
      .ok (parser.await (.openTest ⟨sensor, operator, token.span.start⟩))
  | .comparison _, none => .error (.unscoped token.span.start)
  | _, _ => .error (unexpected .operator token)

/-- The test that ends with a closing parenthesis. -/
def testOf (heading : Heading) (field : Token) (literal : Literal) (close : Token) : Expr :=
  .test
    { sensor := heading.sensor
      operator := heading.operator
      field := field.text
      fieldSpan := field.span
      literal
      span := ⟨heading.start, close.span.stop⟩ }

/-- The group that ends with a closing parenthesis after its last member. -/
def OpenGroup.close (group : OpenGroup) (last : Expr) (close : Token) : Expr :=
  .group group.junction (last :: group.members).reverse ⟨group.start, close.span.stop⟩

/-- Reads what follows a complete expression. -/
def readFollower (groups : List OpenGroup) (expr : Expr) (token : Token) :
    Except Error Parser :=
  match groups, token.kind with
  | [], .finish => .ok ⟨[], .nothing expr⟩
  | [], _ => .error (.malformed token.span.start (.trailing token.found))
  | group :: outer, .comma =>
      .ok ⟨{ group with members := expr :: group.members } :: outer, .subject⟩
  | group :: outer, .closeParen => .ok ⟨outer, .follower (group.close expr token)⟩
  | _ :: _, _ => .error (unexpected .separator token)

/-- Reads one more token. -/
def read (parser : Parser) (token : Token) : Except Error Parser :=
  match parser.awaiting with
  | .subject =>
      if Expr.depthLimit ≤ parser.groups.length then
        .error (.malformed token.span.start .tooDeep)
      else if token.kind = .openBracket then .ok (parser.await .sensorId)
      else parser.readOperator parser.scope token
  | .sensorId =>
      if token.kind = .word then
        (scopeOf token).map fun scope => parser.await (.closeBracket scope)
      else .error (unexpected .sensorId token)
  | .closeBracket scope =>
      if token.kind = .closeBracket then .ok (parser.await (.operator (some scope)))
      else .error (unexpected .closeBracket token)
  | .operator scope => parser.readOperator scope token
  | .openGroup junction scope start =>
      if token.kind = .openParen then
        .ok ⟨⟨junction, scope, start, []⟩ :: parser.groups, .subject⟩
      else .error (unexpected .openGroup token)
  | .openTest heading =>
      if token.kind = .openParen then .ok (parser.await (.fieldName heading))
      else .error (unexpected .openTest token)
  | .fieldName heading =>
      if token.kind = .word then .ok (parser.await (.comma heading token))
      else .error (unexpected .fieldName token)
  | .comma heading field =>
      if token.kind = .comma then .ok (parser.await (.literal heading field))
      else .error (unexpected .comma token)
  | .literal heading field =>
      if token.kind = .word || token.kind = .quoted then
        let literal := ⟨token.text, token.kind = .quoted, token.span⟩
        .ok (parser.await (.closeTest heading field literal))
      else .error (unexpected .literal token)
  | .closeTest heading field literal =>
      if token.kind = .closeParen then
        .ok (parser.await (.follower (testOf heading field literal token)))
      else .error (unexpected .closeTest token)
  | .follower expr => readFollower parser.groups expr token
  | .nothing _ => .ok parser

/-- The error where the tokens end without an end marker. Only a closing parenthesis can be
read twice, and however many groups it closes, it then follows the whole expression. -/
def stuckError (parser : Parser) (last : Token) : Error :=
  match parser.read last with
  | .error error => error
  | .ok _ => .malformed last.span.start (.trailing last.found)

/-- The expression that all tokens up to the last one make. -/
def conclude (parser : Parser) (last : Token) : Except Error Expr :=
  match parser.awaiting with
  | .nothing expr => .ok expr
  | _ => .error (parser.stuckError last)

end Parser

namespace Expr

/-- The expression before the first end marker. -/
def ofTokens (tokens : List Token) : Except Error Expr :=
  match tokens.getLast? with
  | none => .error (.malformed 0 .noTokens)
  | some last => do
      let parser ← tokens.foldlM Parser.read Parser.start
      parser.conclude last

/-- The expression that a text writes. -/
def parse (text : String) : Except Error Expr := do
  let tokens ← Token.scan text
  ofTokens tokens

end Expr

end Tripwire
