import Tripwire.Comparison
import Tripwire.Junction
import Tripwire.Error

/-!
# Tokens

The words of expression text with the places that they were read from.
-/

namespace Tripwire

/-- A stretch of text, in bytes from its beginning; `stop` is the first byte after it. -/
structure Span where
  start : Nat
  stop : Nat
deriving DecidableEq, Repr

namespace Token

/-- What a token is. A quoted token's text is what its escapes stand for. -/
inductive Kind where
  | junction (junction : Junction)
  | comparison (operator : Comparison)
  | openParen
  | closeParen
  | openBracket
  | closeBracket
  | comma
  | word
  | quoted
  | finish
deriving DecidableEq, Repr

end Token

/-- One word of an expression. -/
structure Token where
  kind : Token.Kind
  text : String
  span : Span
deriving DecidableEq, Repr

namespace Token

/-- What messages say stands where this token does. -/
def found (token : Token) : Found :=
  if token.kind = .finish then .finish else .lexeme token.text

end Token

end Tripwire
