import Tripwire.Expr.Parser

/-!
# The grammar of expressions

Which tokens write which expression, under which scope and within how many others. The
relation is told apart from the parser and does not run: a scope is a bracketed word that
reads as an id and holds for what it stands before, until a nested scope replaces it.
-/

namespace Tripwire.Expr

/-- The tokens of a scope and the id that they write. -/
inductive WrittenScope : List Token → SensorId → Prop where
  | intro {opening word closing : Token} {id : Nat}
      (openingKind : opening.kind = .openBracket)
      (wordKind : word.kind = .word)
      (reads : Number.unsigned? 10 32 word.text.toList = some id)
      (closingKind : closing.kind = .closeBracket) :
      WrittenScope [opening, word, closing] (UInt32.ofNat id)

mutual

/-- The tokens write the expression under a scope, enclosed by so many others. -/
inductive Written : (depth : Nat) → Option SensorId → List Token → Expr → Prop where
  | plain {depth : Nat} {scope : Option SensorId} {tokens : List Token} {expr : Expr}
      (within : depth < depthLimit)
      (body : WrittenBody depth scope tokens expr) :
      Written depth scope tokens expr
  | withScope {depth : Nat} {outer : Option SensorId} {prior tokens : List Token}
      {id : SensorId} {expr : Expr}
      (within : depth < depthLimit)
      (scope : WrittenScope prior id)
      (body : WrittenBody depth (some id) tokens expr) :
      Written depth outer (prior ++ tokens) expr

/-- The tokens write a group or a test without a scope of its own. -/
inductive WrittenBody : (depth : Nat) → Option SensorId → List Token → Expr → Prop where
  | test {depth : Nat} {sensor : SensorId} {operator : Comparison}
      {head opening field comma literal closing : Token}
      (headKind : head.kind = .comparison operator)
      (openingKind : opening.kind = .openParen)
      (fieldKind : field.kind = .word)
      (commaKind : comma.kind = .comma)
      (literalKind : literal.kind = .word ∨ literal.kind = .quoted)
      (closingKind : closing.kind = .closeParen) :
      WrittenBody depth (some sensor) [head, opening, field, comma, literal, closing]
        (.test
          { sensor
            operator
            field := field.text
            fieldSpan := field.span
            literal := ⟨literal.text, literal.kind = .quoted, literal.span⟩
            span := ⟨head.span.start, closing.span.stop⟩ })
  | group {depth : Nat} {scope : Option SensorId} {junction : Junction}
      {head opening closing : Token} {tokens : List Token} {members : List Expr}
      (headKind : head.kind = .junction junction)
      (openingKind : opening.kind = .openParen)
      (inside : WrittenMembers (depth + 1) scope tokens members)
      (closingKind : closing.kind = .closeParen) :
      WrittenBody depth scope (head :: opening :: (tokens ++ [closing]))
        (.group junction members ⟨head.span.start, closing.span.stop⟩)

/-- The tokens write members with commas between them. -/
inductive WrittenMembers : (depth : Nat) → Option SensorId → List Token → List Expr → Prop where
  | one {depth : Nat} {scope : Option SensorId} {tokens : List Token} {expr : Expr}
      (member : Written depth scope tokens expr) :
      WrittenMembers depth scope tokens [expr]
  | more {depth : Nat} {scope : Option SensorId} {tokens rest : List Token} {comma : Token}
      {expr : Expr} {members : List Expr}
      (member : Written depth scope tokens expr)
      (commaKind : comma.kind = .comma)
      (others : WrittenMembers depth scope rest members) :
      WrittenMembers depth scope (tokens ++ comma :: rest) (expr :: members)

end

end Tripwire.Expr
